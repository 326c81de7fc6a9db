/-
# Callers and where they are

A caller is one line of activity: it opens a context, holds it and gives it back, or it calls a
hook, shuts a manager down, makes a manager.  Its place says how far it has come and what it has in
its hands; between two steps of one caller, others may take theirs.

| place | next step |
|---|---|
| `asking` | with the lock: gets a context, may build one, goes to sleep, or is refused |
| `asleep` | none until it is woken |
| `building` | asks the factory |
| `grown` | counts the context that was built |
| `abandoned` | with the lock: gives up its slot and wakes one opener |
| `running` | calls the hook |
| `holding`, `refused` | whatever the holder does |
| `returning` | with the lock: the manager keeps the context or not, and wakes one opener |
| `evicting` | counts the context as destroyed |
| `stopping` | with the lock: closes the manager and wakes all openers |
| `draining` | destroys one context, or ends |
| `warming` | builds one of the first contexts of a manager, or makes the manager |
| `finished` | none |
-/
import HookPool.Hook
import HookPool.Lending.Context
import HookPool.Lending.Stock
import HookPool.Error

namespace HookPool
namespace Lending

/-- What an opener wants to do with a context. -/
inductive Purpose where
  /-- To hold it, and to close it by hand. -/
  | hold
  /-- To hold it until the lease ends. -/
  | lease
  | call (hook : String) (arguments : List HookArg)
  deriving DecidableEq

/-- How long an opener waits. -/
structure Deadline where
  /-- The time at which it gives up. -/
  time : Nat
  /-- The span that it was told. -/
  after : Duration
  deriving DecidableEq, Repr

/-- What an opener asks of a manager. -/
structure Request where
  manager : ManagerId
  purpose : Purpose
  /-- Without one it waits for ever. -/
  deadline : Option Deadline
  deriving DecidableEq

/-- How a holder came by its context. -/
inductive Tenure where
  | direct
  | leased (manager : ManagerId)
  deriving DecidableEq, Repr

/-- What a caller makes of the return of its context. -/
inductive Aim where
  /-- It wants to know how the return went. -/
  | close
  /-- It has a reply to give, unless the return fails. -/
  | reply (reply : Except Error HookReply)
  /-- Its lease has gone out of scope, so that a failure can only be reported as an event. -/
  | leave
  /-- It came to grief, and its lease goes with it. -/
  | unwind (payload : String)

/-- The caller is past help, and a sink of events does it no more harm. -/
def Aim.isUnwinding : Aim → Bool
  | .unwind _ => true
  | _ => false

/-- What came of what a caller did. -/
inductive Outcome where
  | done
  | made (manager : ManagerId)
  | replied (reply : HookReply)
  | failed (error : Error)
  | panicked (payload : String)
  deriving DecidableEq

/-- The kind of a manager that is to be made. -/
inductive Plan where
  | pool (config : PoolConfig)
  | single
  deriving DecidableEq, Repr

/-- How many contexts a manager is made with. -/
def Plan.startCount : Plan → Nat
  | .pool config => config.startCount
  | .single => 1

/-- How far a caller has come. -/
inductive Place (σ : Type) where
  | asking (request : Request)
  | asleep (request : Request)
  | building (request : Request)
  | grown (request : Request) (context : Context σ)
  | abandoned (request : Request) (error : Error)
  | running (manager : ManagerId) (hook : String) (arguments : List HookArg) (context : Context σ)
  | holding (tenure : Tenure) (context : Context σ)
  /-- The manager has refused to take the context back. -/
  | refused (context : Context σ)
  | returning (manager : ManagerId) (aim : Aim) (context : Context σ)
  | evicting (manager : ManagerId) (aim : Aim) (context : Context σ)
  | stopping (manager : ManagerId)
  /-- `active` contexts were lent when the manager was closed, and `first` says whether it was open
  before. -/
  | draining (manager : ManagerId) (active : Nat) (first : Bool) (rest : List (Context σ))
  | warming (manager : ManagerId) (plan : Plan) (factory : Nat) (built : List (Context σ))
  | creating (factory : Nat)
  | finished (outcome : Outcome)

namespace Place

variable {σ : Type}

/-- The contexts in the hands of a caller. -/
def contexts : Place σ → List (Context σ)
  | .grown _ c | .running _ _ _ c | .holding _ c | .refused c => [c]
  | .returning _ _ c | .evicting _ _ c => [c]
  | .draining _ _ _ rest => rest
  | .warming _ _ _ built => built
  | _ => []

/-- The caller can take a step on its own. -/
def isReady : Place σ → Bool
  | .asleep _ | .holding .. | .refused _ | .finished _ => false
  | _ => true

/-- The caller sleeps until the manager has something for it. -/
def sleepsOn (m : ManagerId) : Place σ → Bool
  | .asleep r => r.manager == m
  | _ => false

/-- The caller still needs the manager. -/
def uses (m : ManagerId) : Place σ → Bool
  | .asking r | .asleep r | .building r | .grown r _ | .abandoned r _ => r.manager == m
  | .running m' .. | .returning m' .. | .evicting m' .. => m' == m
  | .stopping m' | .draining m' .. | .warming m' .. => m' == m
  | .holding (.leased m') _ => m' == m
  | .holding .direct _ | .refused _ | .creating _ | .finished _ => false

end Place
end Lending
end HookPool
