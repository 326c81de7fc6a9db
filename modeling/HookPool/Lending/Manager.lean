/-
# Managers and their counters

A manager has a stock of contexts under a lock, and two counters beside it.  Once it is shut down it
is closed for ever.  Should a caller come to grief while it has the lock, the manager is poisoned:
it does nothing any more, but still tells its counters.
-/
import HookPool.Lending.Stock

namespace HookPool
namespace Lending

/-- A manager of contexts. -/
structure Manager (σ : Type) where
  stock : Stock σ
  /-- The factory that a pool grows by. -/
  factory : Nat
  closed : Bool := false
  poisoned : Bool := false
  /-- How many contexts were built for it. -/
  created : Nat
  /-- How many of them were destroyed. -/
  destroyed : Nat := 0

/-- What a manager tells of itself. -/
structure Stats where
  active : Nat
  idle : Nat
  created : Nat
  destroyed : Nat
  maxActive : Nat
  maxIdle : Nat
  deriving DecidableEq, Repr

namespace Manager

variable {σ : Type}

def stats (m : Manager σ) : Stats where
  active := m.stock.active
  idle := m.stock.contexts.length
  created := m.created
  destroyed := m.destroyed
  maxActive := m.stock.maxActive
  maxIdle := m.stock.maxIdle

/-- A context that comes back is kept if the manager is open and its stock has room. -/
def keeps (m : Manager σ) : Bool :=
  !m.closed && m.stock.keeps

def poison (m : Manager σ) : Manager σ := { m with poisoned := true }

def withStock (m : Manager σ) (stock : Stock σ) : Manager σ := { m with stock }

def countCreated (m : Manager σ) : Manager σ := { m with created := m.created + 1 }

def countDestroyed (m : Manager σ) (n : Nat) : Manager σ :=
  { m with destroyed := m.destroyed + n }

/-- The manager as it is after its shutdown: closed, with nothing at hand. -/
def shut (m : Manager σ) : Manager σ :=
  { m with closed := true, stock := m.stock.emptied }

@[simp] theorem stock_withStock (m : Manager σ) (stock : Stock σ) :
    (m.withStock stock).stock = stock := rfl

@[simp] theorem stock_poison (m : Manager σ) : m.poison.stock = m.stock := rfl

@[simp] theorem stock_countCreated (m : Manager σ) : m.countCreated.stock = m.stock := rfl

@[simp] theorem stock_countDestroyed (m : Manager σ) (n : Nat) :
    (m.countDestroyed n).stock = m.stock := rfl

@[simp] theorem stock_shut (m : Manager σ) : m.shut.stock = m.stock.emptied := rfl

/-- A manager of one context keeps it as long as it is open. -/
theorem closed_of_not_keeps {m : Manager σ} (hs : m.stock.isPool = false)
    (hk : m.keeps = false) : m.closed = true := by
  cases hstock : m.stock with
  | pool config active idle => rw [hstock] at hs; cases hs
  | single slot out => simpa [keeps, Stock.keeps, hstock] using hk

end Manager
end Lending
end HookPool
