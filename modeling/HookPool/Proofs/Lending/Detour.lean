/-
# Callers on detours

A caller that closes a context on a manager which has not lent it has it back after two turns: the
manager refuses it, and the caller takes it up again.  Until then it is on a detour: it asks the
manager, or has been refused, while it would be holding its context otherwise.

`State.detoured` is a state in which some callers are on such detours, and more was reported before:
a view of the state (`faithful_detoured`).  So nobody else can tell: whatever a caller at home does
comes to the same in both states, and leaves the others on their detours (`move_detoured`).  Only a
manager cannot be dropped while somebody asks it.
-/
import HookPool.Proofs.Lending.Views

namespace HookPool
namespace Lending

variable {σ : Type}

/-- Where a caller is that holds a context otherwise. -/
inductive Detour where
  | home
  /-- It closes its context on the manager. -/
  | asking (m : ManagerId)
  | refused
  deriving DecidableEq

/-- The place of a caller, if a holder is on a detour. -/
def Place.detoured : Detour → Place σ → Place σ
  | .asking m, .holding .direct c => .returning m .close c
  | .refused, .holding .direct c => .refused c
  | _, p => p

/-- The place is that of no holder who could be on a detour. -/
def Place.isStill : Place σ → Bool
  | .holding .direct _ => false
  | _ => true

namespace Place

@[simp] theorem detoured_home (p : Place σ) : p.detoured .home = p := by
  cases p with
  | holding tenure c => cases tenure <;> rfl
  | _ => rfl

theorem detoured_of_isStill {p : Place σ} (h : p.isStill = true) (d : Detour) :
    p.detoured d = p := by
  cases p with
  | holding tenure c =>
    cases tenure with
    | direct => cases h
    | leased m => cases d <;> rfl
  | _ => cases d <;> rfl

theorem sleepsOn_detoured (m : ManagerId) (d : Detour) (p : Place σ) :
    (p.detoured d).sleepsOn m = p.sleepsOn m := by
  cases p with
  | holding tenure c => cases tenure <;> cases d <;> rfl
  | _ => cases d <;> rfl

theorem awakened_detoured (m : ManagerId) (d : Detour) (p : Place σ) :
    State.awakened m (p.detoured d) = (State.awakened m p).detoured d := by
  cases p with
  | holding tenure c => cases tenure <;> cases d <;> rfl
  | asleep r =>
    rw [detoured_of_isStill rfl, detoured_of_isStill]
    unfold State.awakened
    dsimp only
    split <;> rfl
  | _ => cases d <;> rfl

theorem uses_detoured {m : ManagerId} {d : Detour} (h : d ≠ .asking m) (p : Place σ) :
    (p.detoured d).uses m = p.uses m := by
  cases p with
  | holding tenure c =>
    cases tenure with
    | leased k => cases d <;> rfl
    | direct =>
      cases d with
      | home => rfl
      | refused => rfl
      | asking k =>
        have hk : k ≠ m := fun hk => h (hk ▸ rfl)
        simpa [detoured, uses] using hk
  | _ => cases d <;> rfl

end Place

namespace State

/-- The state with callers on detours, and with more events before all others. -/
def detoured (d : Nat → Detour) (before : List Event) (s : State σ) : State σ :=
  { s with
    places := s.places.mapIdx fun i => Place.detoured (d i)
    events := s.events ++ before }

variable (d : Nat → Detour) (es : List Event) (s : State σ) {m : ManagerId}

theorem faithful_detoured : View.Faithful (σ := σ) fun i => Place.detoured (d i) :=
  ⟨fun i m p => Place.sleepsOn_detoured m (d i) p, fun i m p => Place.awakened_detoured m (d i) p⟩

@[simp] theorem sleepers_detoured (m : ManagerId) :
    (s.detoured d es).sleepers m = s.sleepers m :=
  sleepers_viewed es s (faithful_detoured d) m

/-- A manager that nobody asks on a detour is in use as it would be. -/
theorem inUse_detoured (h : ∀ k, d k ≠ .asking m) :
    (s.detoured d es).inUse m = s.inUse m :=
  inUse_viewed fun k p _ => Place.uses_detoured (h k) p

/-- **Whatever a caller does that is at home comes to the same while others are on detours**, and
leaves them there; a manager is dropped only if nobody asks it. -/
theorem move_detoured (invoke : Invoke σ) {mv : Move σ}
    (hd : ∀ i, mv.isTurnOf i = true → d i = .home)
    (hdrop : ∀ i m, mv = .begin i (.dropManager m) → ∀ k, d k ≠ .asking m) :
    (s.detoured d es).move invoke mv = (s.move invoke mv).map (detoured d es) := by
  refine move_viewed (faithful_detoured d) invoke (fun i hi => ?_)
    fun i m hmv => inUse_detoured d es s (hdrop i m hmv)
  funext p
  rw [hd i hi, Place.detoured_home, id]

end State
end Lending
end HookPool
