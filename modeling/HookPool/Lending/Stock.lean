/-
# What a manager keeps, and how many it has lent

A pool keeps contexts idle and counts those that are lent or being built; it lends the one that has
been idle for the longest time.  The other kind of manager has a single context, which is there or
not.

The definitions here are what happens while a manager is locked.  Main statements: offering a
context to an opener and taking a context back as facts on `active` and `contexts`, the two views
that both kinds share.
-/
import HookPool.Config.Basic
import HookPool.Lending.Context

namespace HookPool
namespace Lending

/-- What a manager has in its hands and has lent. -/
inductive Stock (σ : Type) where
  | pool (config : PoolConfig) (active : Nat) (idle : List (Context σ))
  | single (slot : Option (Context σ)) (checkedOut : Bool)

/-- What an opener comes to. -/
inductive Offer (σ : Type) where
  /-- It gets a context. -/
  | lent (context : Context σ) (rest : Stock σ)
  /-- It may build a context. -/
  | reserved (rest : Stock σ)
  /-- It has to wait. -/
  | full

namespace Stock

variable {σ : Type}

/-- How many contexts are lent or being built. -/
def active : Stock σ → Nat
  | .pool _ active _ => active
  | .single _ checkedOut => if checkedOut then 1 else 0

/-- The contexts at hand, the next one to lend first. -/
def contexts : Stock σ → List (Context σ)
  | .pool _ _ idle => idle
  | .single slot _ => slot.toList

/-- The most contexts that may be lent at once. -/
def maxActive : Stock σ → Nat
  | .pool config _ _ => config.maxActive
  | .single _ _ => 1

/-- The most contexts that a return leaves at hand. -/
def maxIdle : Stock σ → Nat
  | .pool config _ _ => config.maxIdle
  | .single _ _ => 1

/-- The stock is a pool's. -/
def isPool : Stock σ → Bool
  | .pool .. => true
  | .single .. => false

/-- An opener gets the context that is next, or else a pool lets it build one while fewer than
`maxActive` are lent. -/
def offer : Stock σ → Offer σ
  | .pool config active (c :: rest) => .lent c (.pool config (active + 1) rest)
  | .pool config active [] =>
    if active < config.maxActive then .reserved (.pool config (active + 1) []) else .full
  | .single (some c) _ => .lent c (.single none true)
  | .single none _ => .full

/-- One context fewer is lent. -/
def vacate : Stock σ → Stock σ
  | .pool config active idle => .pool config (active - 1) idle
  | .single slot _ => .single slot false

/-- A context that comes back while the manager is open is kept: by a pool, if it has fewer than
`maxIdle` idle. -/
def keeps : Stock σ → Bool
  | .pool config _ idle => idle.length < config.maxIdle
  | .single _ _ => true

/-- Puts a context behind those at hand. -/
def put (c : Context σ) : Stock σ → Stock σ
  | .pool config active idle => .pool config active (idle ++ [c])
  | .single _ checkedOut => .single (some c) checkedOut

/-- The stock without its contexts. -/
def emptied : Stock σ → Stock σ
  | .pool config active _ => .pool config active []
  | .single _ checkedOut => .single none checkedOut

/-! ## The two views -/

@[simp] theorem contexts_emptied (s : Stock σ) : s.emptied.contexts = [] := by
  cases s <;> rfl

@[simp] theorem active_emptied (s : Stock σ) : s.emptied.active = s.active := by
  cases s <;> rfl

@[simp] theorem contexts_vacate (s : Stock σ) : s.vacate.contexts = s.contexts := by
  cases s <;> rfl

@[simp] theorem active_put (c : Context σ) (s : Stock σ) : (s.put c).active = s.active := by
  cases s <;> rfl

/-- **A context that is lent is the first one at hand.** -/
theorem contexts_of_offer_lent {s rest : Stock σ} {c : Context σ} (h : s.offer = .lent c rest) :
    s.contexts = c :: rest.contexts := by
  unfold offer at h
  split at h
  · cases h; rfl
  · split at h <;> cases h
  · cases h; rfl
  · cases h

/-- **Building is allowed only if nothing is at hand and fewer than `maxActive` are lent.** -/
theorem of_offer_reserved {s rest : Stock σ} (h : s.offer = .reserved rest) :
    s.contexts = [] ∧ s.active < s.maxActive ∧ rest.contexts = [] ∧
      rest.active = s.active + 1 := by
  unfold offer at h
  split at h
  · cases h
  · split at h
    · cases h; exact ⟨rfl, by assumption, rfl, rfl⟩
    · cases h
  · cases h
  · cases h

/-- **An opener of a pool waits exactly if nothing is at hand and `maxActive` are lent.** -/
theorem offer_pool_eq_full_iff {config : PoolConfig} {active : Nat} {idle : List (Context σ)} :
    (Stock.pool config active idle).offer = .full ↔ idle = [] ∧ config.maxActive ≤ active := by
  cases idle with
  | nil => simp [offer]
  | cons c rest => simp [offer]

/-! ## Sizes -/

/-- The sizes of a pool. -/
def config? : Stock σ → Option PoolConfig
  | .pool config _ _ => some config
  | .single .. => none

theorem isPool_congr {s t : Stock σ} (h : s.config? = t.config?) : s.isPool = t.isPool := by
  cases s <;> cases t <;> first | rfl | cases h

theorem maxActive_congr {s t : Stock σ} (h : s.config? = t.config?) :
    s.maxActive = t.maxActive := by
  cases s <;> cases t <;> cases h <;> rfl

theorem maxIdle_congr {s t : Stock σ} (h : s.config? = t.config?) : s.maxIdle = t.maxIdle := by
  cases s <;> cases t <;> cases h <;> rfl

theorem maxActive_of_not_isPool {s : Stock σ} (h : s.isPool = false) : s.maxActive = 1 := by
  cases s with
  | pool config active idle => cases h
  | single slot out => rfl

@[simp] theorem config?_vacate (s : Stock σ) : s.vacate.config? = s.config? := by
  cases s <;> rfl

@[simp] theorem config?_put (c : Context σ) (s : Stock σ) : (s.put c).config? = s.config? := by
  cases s <;> rfl

@[simp] theorem config?_emptied (s : Stock σ) : s.emptied.config? = s.config? := by
  cases s <;> rfl

theorem config?_of_offer_lent {s rest : Stock σ} {c : Context σ} (h : s.offer = .lent c rest) :
    rest.config? = s.config? := by
  unfold offer at h
  split at h
  · cases h; rfl
  · split at h <;> cases h
  · cases h; rfl
  · cases h

theorem config?_of_offer_reserved {s rest : Stock σ} (h : s.offer = .reserved rest) :
    rest.config? = s.config? := by
  unfold offer at h
  split at h
  · cases h
  · split at h <;> cases h
    rfl
  · cases h
  · cases h

theorem isPool_of_offer_reserved {s rest : Stock σ} (h : s.offer = .reserved rest) :
    s.isPool = true := by
  cases s with
  | pool config active idle => rfl
  | single slot out => cases slot <;> cases h

/-- A pool keeps a context that comes back if fewer than `maxIdle` are at hand. -/
theorem keeps_iff {s : Stock σ} {config : PoolConfig} (h : s.config? = some config) :
    s.keeps = true ↔ s.contexts.length < config.maxIdle := by
  cases s with
  | pool config' active idle =>
    obtain rfl := Option.some.inj h
    simp [keeps, contexts]
  | single slot out => cases h

@[simp] theorem active_vacate (s : Stock σ) : s.vacate.active = s.active - 1 := by
  cases s with
  | pool config active idle => rfl
  | single slot out => cases out <;> rfl

/-- **Lending counts one context more**, where what is lent and what is at hand is within bounds. -/
theorem active_of_offer_lent {s rest : Stock σ} {c : Context σ} (h : s.offer = .lent c rest)
    (hroom : s.active + s.contexts.length ≤ s.maxActive) : rest.active = s.active + 1 := by
  unfold offer at h
  split at h
  · cases h; rfl
  · split at h <;> cases h
  · rename_i c checkedOut
    cases h
    cases checkedOut with
    | false => rfl
    | true => exact absurd hroom (by simp [active, contexts, maxActive])
  · cases h

/-- A context that is put where nothing is overwritten comes behind those at hand. -/
theorem contexts_put (c : Context σ) {s : Stock σ} (h : s.isPool = true ∨ s.contexts = []) :
    (s.put c).contexts = s.contexts ++ [c] := by
  cases s with
  | pool config active idle => rfl
  | single slot out =>
    cases slot with
    | none => rfl
    | some d => rcases h with h | h <;> cases h

/-- A stock that has nothing to offer has nothing at hand. -/
theorem of_offer_full {s : Stock σ} (h : s.offer = .full) :
    s.contexts = [] ∧ (s.isPool = true → s.maxActive ≤ s.active) := by
  cases s with
  | pool config active idle =>
    obtain ⟨rfl, hfull⟩ := offer_pool_eq_full_iff.1 h
    exact ⟨rfl, fun _ => hfull⟩
  | single slot out =>
    cases slot with
    | none => exact ⟨rfl, nofun⟩
    | some c => cases h

end Stock
end Lending
end HookPool
