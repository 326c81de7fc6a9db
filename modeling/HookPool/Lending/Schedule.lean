/-
# One schedule of the callers

Callers may take their steps in any order; here is one order in which they do.  The caller that came
first goes first, as far as it can, and it is the first to be woken.  Time passes only while nobody
can take a step, and a sleeper gives up as soon as its time has come.
-/
import HookPool.Lending.Step

namespace HookPool
namespace Lending
namespace State

variable {σ : Type}

/-! ## Until nobody can take a step -/

/-- The first caller from `caller` on that can take a step, after its step. -/
def stepFirst? (invoke : Invoke σ) (s : State σ) : Nat → List (Place σ) → Option (State σ)
  | _, [] => none
  | caller, place :: rest =>
    match if place.isReady then s.step? invoke caller s.places.length else none with
    | some s => some s
    | none => s.stepFirst? invoke (caller + 1) rest

/-- Takes steps, at most as many as told, until nobody can take one. -/
def settleWithin (invoke : Invoke σ) : Nat → State σ → State σ
  | 0, s => s
  | fuel + 1, s =>
    match s.stepFirst? invoke 0 s.places with
    | some s => settleWithin invoke fuel s
    | none => s

/-- How many contexts a caller may still build or destroy. -/
def contextsAhead : Place σ → Nat
  | .warming _ plan _ _ => 2 * plan.startCount
  | place => place.contexts.length

/-- How many contexts stand under the number of a manager. -/
def contextsAt : Option (Manager σ) → Nat
  | some manager => manager.stock.contexts.length
  | none => 0

/-- More steps than callers can take: each one takes a few, is woken at most once by each other
one, and builds or destroys each context at most once. -/
def effort (s : State σ) : Nat :=
  let callers := s.places.length + 1
  let ahead := s.places.foldl (· + contextsAhead ·) 0
  let made := s.managers.foldl (· + contextsAt ·) 0
  16 * callers * callers + ahead + made

/-- Lets the callers take steps until nobody can take one. -/
def settle (invoke : Invoke σ) (s : State σ) : State σ :=
  settleWithin invoke s.effort s

/-- A caller begins to do something, and all go on until nobody can take a step. -/
def start (invoke : Invoke σ) (s : State σ) (caller : Nat) (operation : Operation) : State σ :=
  ((s.begin? caller operation).getD s).settle invoke

/-- A holder does something with its context, and all go on until nobody can take a step. -/
def handle (invoke : Invoke σ) (s : State σ) (caller : Nat) (handling : Handling) : State σ :=
  ((s.handle? caller handling).getD s).settle invoke

/-- What came of what a caller did; nothing while it is not finished. -/
def outcome? (s : State σ) (caller : Nat) : Option Outcome :=
  match s.places[caller]? with
  | some (.finished outcome) => some outcome
  | _ => none

/-! ## While time passes -/

/-- The time at which a sleeper gives up. -/
def expiry? : Place σ → Option Nat
  | .asleep r => r.deadline.map Deadline.time
  | _ => none

/-- The first sleeper to give up until a time. -/
def nextExpiry? (s : State σ) (limit : Nat) : Option (Nat × Nat) :=
  (List.range s.places.length).foldl (fun best caller =>
    match (s.places[caller]?).bind expiry?, best with
    | some time, some (_, earliest) => if time < earliest then some (caller, time) else best
    | some time, none => if time ≤ limit then some (caller, time) else none
    | none, _ => best) none

/-- Somebody sleeps. -/
def anyAsleep (s : State σ) : Bool :=
  s.places.any fun | .asleep _ => true | _ => false

/-- Sleepers give up one after the other, at most as many as told, until a time. -/
def expireWithin (invoke : Invoke σ) (limit : Nat) : Nat → State σ → State σ
  | 0, s => s
  | fuel + 1, s =>
    match s.nextExpiry? limit with
    | none => s
    | some (caller, time) =>
      let s := { s with clock := max s.clock time }
      expireWithin invoke limit fuel (((s.rouse? caller).getD s).settle invoke)

/-- Lets time pass until a moment, or until nobody sleeps. -/
def passUntil (invoke : Invoke σ) (s : State σ) (limit : Nat) : State σ :=
  let s := expireWithin invoke limit s.places.length s
  if s.anyAsleep then { s with clock := max s.clock limit } else s

end State
end Lending
end HookPool
