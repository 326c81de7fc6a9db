/-
# One close for all who return a context

A caller returns its context because it closes it by hand, because its lease is released or goes out
of scope, or because it comes to grief.  As long as the sink does not panic, the manager does the
same for all of them (`closeOwn`), and no more than that depends on the aim: what the caller comes
to (`Aim.verdict`), and whether an error goes to the log because nobody is told otherwise
(`Aim.logged`).

Main statements: `giveBack_spared` and `evict_spared`.
-/
import HookPool.Proofs.Lending.Quiet
import HookPool.Proofs.Lending.Views

namespace HookPool
namespace Lending

variable {σ : Type}

/-- What the log is told of how a return went: an error that nobody is told otherwise. -/
def Aim.logged : Aim → Except Error Unit → List Event
  | .leave, .error e | .unwind _, .error e => [.leaseNotReturned e]
  | _, _ => []

theorem Aim.logged_ok (aim : Aim) : aim.logged (.ok ()) = [] := by
  cases aim <;> rfl

namespace State

variable {s : State σ} {i chosen : Nat} {m : ManagerId} {M : Manager σ} {aim : Aim} {c : Context σ}
  {result : Except Error Unit}

/-- Records events without any risk, the newest first. -/
def recordAll (s : State σ) (events : List Event) : State σ :=
  { s with events := events ++ s.events }

/-- What a manager does with a context of its own that comes back, and how that went; nothing is
known of that as long as the context has still to be destroyed. -/
def closeOwn (s : State σ) (m : ManagerId) (c : Context σ) (M : Manager σ) (chosen : Nat) :
    State σ × Option (Except Error Unit) :=
  let stock := M.stock.vacate
  let vacated := s.setManager m (some (M.withStock stock))
  if M.poisoned then (s.wreck c, some (.error .lockFailed))
  else if M.keeps then
    ((((vacated.record (keptEvent m stock c)).setManager m
      (some (M.withStock (stock.put c)))).wakeOne m chosen), some (.ok ()))
  else if stock.isPool then (vacated.wakeOne m chosen, none)
  else (vacated, none)

/-- Where a return leaves its caller. -/
def returned (i : Nat) (m : ManagerId) (aim : Aim) (c : Context σ) :
    State σ × Option (Except Error Unit) → State σ
  | (s, some result) => (s.recordAll (aim.logged result)).put i (.finished (aim.verdict result))
  | (s, none) => s.put i (.evicting m aim c)

/-- A context that comes back to its own manager is never taken for another one's. -/
theorem closeOwn_result (h : (s.closeOwn m c M chosen).2 = some result) :
    result = .ok () ∨ result = .error .lockFailed := by
  unfold closeOwn at h
  dsimp only at h
  split at h
  · exact .inr (Option.some.inj h).symm
  split at h
  · exact .inl (Option.some.inj h).symm
  · split at h <;> cases h

theorem length_closeOwn (s : State σ) (m : ManagerId) (c : Context σ) (M : Manager σ)
    (chosen : Nat) : (s.closeOwn m c M chosen).1.places.length = s.places.length := by
  unfold closeOwn
  dsimp only
  split
  · rfl
  split
  · rw [length_wakeOne]
    rfl
  · split
    · rw [length_wakeOne]
      rfl
    · rfl

theorem closeOwn_viewed {v : View σ} (hv : v.Faithful) (es : List Event) (s : State σ)
    (m : ManagerId) (c : Context σ) (M : Manager σ) (chosen : Nat) :
    (s.viewed v es).closeOwn m c M chosen =
      ((s.closeOwn m c M chosen).1.viewed v es, (s.closeOwn m c M chosen).2) := by
  unfold closeOwn
  dsimp only
  split
  · rfl
  split
  · rw [setManager_viewed, record_viewed, setManager_viewed, wakeOne_viewed es _ hv]
  · split
    · rw [setManager_viewed, wakeOne_viewed es _ hv]
    · rfl

theorem discarded_viewed (v : View σ) (es : List Event) (s : State σ) (m : ManagerId)
    (M : Manager σ) (c : Context σ) :
    (s.viewed v es).discarded m M c = (s.discarded m M c).viewed v es := by
  unfold discarded
  cases M.stock.isPool <;> rfl

theorem places_discarded (s : State σ) (m : ManagerId) (M : Manager σ) (c : Context σ) :
    (s.discarded m M c).places = s.places := by
  unfold discarded
  cases M.stock.isPool <;> rfl

/-! ## Returns at which the sink does not panic -/

theorem conclude_spared (h : Spares s (s.conclude i aim result)) :
    s.conclude i aim result =
      (s.recordAll (aim.logged result)).put i (.finished (aim.verdict result)) := by
  cases aim with
  | close => cases result <;> rfl
  | reply reply => cases reply <;> cases result <;> rfl
  | unwind payload => cases result <;> rfl
  | leave =>
    cases result with
    | ok => rfl
    | error e =>
      obtain hr | ⟨ha, u, hr, hu⟩ := report_tells s (.leaseNotReturned e)
      · simp only [conclude, hr]
        rfl
      · simp only [conclude, hr] at h
        exact absurd (h (by simpa using hu)) ha

theorem takeBack_spared (hp : M.poisoned = false) (h : Spares s (s.takeBack i m aim c M chosen)) :
    s.takeBack i m aim c M chosen = returned i m aim c (s.closeOwn m c M chosen) := by
  have hsound : ¬M.poisoned = true := Bool.eq_false_iff.1 hp
  cases hk : M.keeps with
  | true =>
    rw [takeBack, if_pos hk] at h ⊢
    rw [closeOwn, if_neg hsound, if_pos hk]
    obtain hr | ⟨ha, u, hr, hu⟩ :=
      reportFor_tells (s.setManager m (some (M.withStock M.stock.vacate))) aim.isUnwinding
        (keptEvent m M.stock.vacate c)
    · rw [hr, returned, Aim.logged_ok]
      exact conclude_ok _ i aim
    · rw [hr] at h
      exact absurd (h (by simpa using hu)) ha
  | false =>
    have hspurned : ¬M.keeps = true := Bool.eq_false_iff.1 hk
    rw [takeBack, if_neg hspurned, closeOwn, if_neg hsound, if_neg hspurned]
    cases M.stock.vacate.isPool <;> rfl

/-- **Whoever returns a context to its own manager, the manager does the same**, as long as the sink
does not panic. -/
theorem giveBack_spared (ho : c.owner = some m)
    (h : Spares s (s.giveBack i m aim c M chosen)) :
    s.giveBack i m aim c M chosen = returned i m aim c (s.closeOwn m c M chosen) := by
  have howner : ¬c.owner ≠ some m := not_not_intro ho
  cases hp : M.poisoned with
  | false =>
    have hback : s.giveBack i m aim c M chosen = s.takeBack i m aim c M chosen := by
      rw [giveBack, if_neg howner, if_neg (by rw [hp]; exact Bool.false_ne_true)]
    rw [hback] at h ⊢
    exact takeBack_spared hp h
  | true =>
    have hclose : s.closeOwn m c M chosen = (s.wreck c, some (.error .lockFailed)) := by
      rw [closeOwn, if_pos hp]
    rw [giveBack, if_neg howner, if_pos hp] at h ⊢
    rw [hclose]
    obtain hr | ⟨ha, u, hr, hu⟩ := destroyFor_tells s aim.isUnwinding c
    · rw [hr] at h ⊢
      exact conclude_spared h
    · rw [hr] at h
      exact absurd (h (by simpa using hu)) ha

/-- **Whoever returns a context that its manager does not keep, the context is discarded alike**, as
long as the sink does not panic. -/
theorem evict_spared (h : Spares s (s.evict i m aim c M)) :
    s.evict i m aim c M = (s.discarded m M c).put i (.finished (aim.verdict (.ok ()))) := by
  unfold evict at h ⊢
  obtain hr | ⟨ha, u, hr, hu⟩ := discard_tells s aim.isUnwinding m M c
  · rw [hr]
    exact conclude_ok _ i aim
  · rw [hr] at h
    exact absurd (h (by simpa using hu)) ha

end State
end Lending
end HookPool
