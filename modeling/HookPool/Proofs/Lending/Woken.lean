/-
# Whom a shutdown wakes

A shutdown that comes to have the lock of a sound manager closes it and wakes everybody who sleeps
on it.  From then on nobody falls asleep on the manager, and each one who slept is told that it is
closed, in its next turn and whatever happens to the others.

A shutdown of a poisoned manager turns back before that: it is told that the lock has failed, and
wakes nobody.  Those who came to sleep before the manager was poisoned are then woken by nobody but a
caller that has reserved a slot and fails to build.  Without one, whoever sleeps without a time of
its own sleeps on for ever, while the manager is of no use to anybody.

Main statement: `Reachable.shutdown_wakes`, on all runs, calm or not.
-/
import HookPool.Proofs.Lending.Frozen
import HookPool.Proofs.Lending.Wakeup

namespace HookPool
namespace Lending

variable {σ : Type}

/-- Who sleeps on a manager that nobody is woken on sleeps on. -/
theorem apply_of_count_eq_zero {w : Wake} {places : List (Place σ)} {i : Nat} {r : Request}
    (hi : places[i]? = some (.asleep r)) (hw : w.count r.manager 1 = 0) :
    (w.apply places)[i]? = some (.asleep r) := by
  cases w with
  | nobody => exact hi
  | one m chosen =>
    have hne : r.manager ≠ m := by
      rintro rfl
      simp at hw
    obtain ⟨-, h⟩ | ⟨j, r', hj, hr', h⟩ := apply_one m chosen places
    · rw [h, hi]
    · rw [h, List.getElem?_set, if_neg, hi]
      rintro rfl
      rw [hi] at hj
      cases hj
      exact hne hr'
  | all m =>
    have hne : r.manager ≠ m := by
      rintro rfl
      simp at hw
    rw [Wake.apply, List.getElem?_map, hi, Option.map_some, State.awakened, if_neg hne]

namespace State

variable {invoke : Invoke σ} {s s₁ t : State σ} {mv : Move σ} {moves : List (Move σ)} {i j : Nat}
  {p : Place σ} {u : Upshot σ} {m : ManagerId} {M : Manager σ} {r : Request}

/-- **On a poisoned manager nobody is woken** but by a caller that gives up its slot. -/
theorem Turn.wakes (h : Turn invoke s i mv p u)
    (hp : ∀ M, s.manager? m = some M → M.poisoned = true) (hb : p.builds m = 0) :
    u.wake.count m 1 = 0 := by
  have hne : ∀ {k : ManagerId} {M : Manager σ}, s.manager? k = some M → M.poisoned = false →
      k ≠ m := by
    rintro k M hM hs rfl
    rw [hp M hM] at hs
    cases hs
  cases h with
  | opening h =>
    cases h with
    | @gaveUp r M e hM =>
      have hk : r.manager ≠ m := by
        rintro rfl
        simp at hb
      simp [hk]
    | _ => rfl
  | givingBack h =>
    cases h with
    | kept hM _ hs => simp [hne hM hs]
    | turnedAway hM _ hs => split <;> simp [hne hM hs]
    | _ => rfl
  | stopping h =>
    cases h with
    | stopped hM hs => simp [hne hM hs]
    | _ => rfl
  | making h => cases h <;> rfl
  | beginning h => cases h <;> rfl
  | dealing h => cases h <;> rfl
  | works => rfl
  | rousing => rfl

theorem place?_of_asleep (hi : s.placeOf i = .asleep r) : s.places[i]? = some (.asleep r) :=
  mem_places_of_placeOf hi nofun

/-- **Who sleeps on a poisoned manager sleeps on**, until it wakes up by itself, where nobody has a
slot to give up. -/
theorem Barred.sleeps_on (h : Barred invoke s m .lockFailed)
    (hb : total (Place.builds m) s.places = 0) (hi : s.placeOf i = .asleep r) (hrm : r.manager = m)
    (hr : s.run invoke moves = some t) (hrouse : .rouse i ∉ moves) : t.placeOf i = .asleep r := by
  induction moves generalizing s with
  | nil =>
    obtain rfl := Option.some.inj hr
    exact hi
  | cons mv moves ih =>
    obtain ⟨t₁, hm, hr⟩ := run_cons hr
    obtain ⟨hmv, hrest⟩ := not_or.1 (mt List.mem_cons.2 hrouse)
    have hat := place?_of_asleep hi
    obtain ⟨k, u, hk, hu, hf⟩ | hidle := move_turn hm
    · have hbuilds : (s.placeOf k).builds m = 0 :=
        Nat.le_zero.1 (hb ▸ placeOf_le_total rfl k)
      have hki : k ≠ i := by
        rintro rfl
        rw [hi] at hu
        exact hmv hu.of_asleep.1.symm
      have hl : k ≤ (u.wake.apply s.places).length := by rw [length_apply]; exact hk
      have hsleep := apply_of_count_eq_zero hat
        (hrm ▸ hu.wakes (fun M hM => h.poisoned hM) hbuilds)
      have hi₁ : t₁.placeOf i = .asleep r :=
        placeOf_eq (by rw [hf.places, getElem?_putAt hl, if_neg hki.symm, hsleep])
      refine ih (h.move hm) (Nat.le_zero.1 (Nat.le_of_not_lt fun hpos => ?_)) hi₁ hr hrest
      obtain ⟨l, q, hl, hpos⟩ := exists_of_total_pos hpos
      have hbefore := (h.builds (i := l) (run_one hm) (by rw [placeOf_eq hl]; exact hpos)).1
      have := placeOf_le_total (s := s) (f := Place.builds m) rfl l
      omega
    · refine ih (h.move hm) (by rw [hidle.places]; exact hb) ?_ hr hrest
      rw [← hi, placeOf, placeOf, hidle.places]

/-- What a shutdown of a sound manager does to those who sleep on it: it has the lock in the step
from `s` to `s₁`, and `t` is any later point. -/
structure Wakes (invoke : Invoke σ) (m : ManagerId) (s s₁ t : State σ) : Prop where
  woken : ∀ i r, s.placeOf i = .asleep r → r.manager = m →
    s₁.placeOf i = .asking r ∧ Ends invoke s₁ i (· = .failed .managerClosed) 1
  awake : ∀ i r, t.placeOf i = .asleep r → r.manager ≠ m

/-- What a shutdown of a poisoned manager does to those who sleep on it. -/
structure LeavesAsleep (invoke : Invoke σ) (m : ManagerId) (s s₁ : State σ) (j : Nat) : Prop where
  returned : s₁ = s.finish j (.failed .lockFailed)
  asleep : ∀ i r, s.placeOf i = .asleep r → r.manager = m → s₁.placeOf i = .asleep r
  /-- If nobody has a slot to give up, whoever does not wake up by itself sleeps for ever. -/
  forever : total (Place.builds m) s.places = 0 → ∀ i r, s.placeOf i = .asleep r → r.manager = m →
    ∀ moves t, s₁.run invoke moves = some t → .rouse i ∉ moves → t.placeOf i = .asleep r
  /-- Whoever wakes up is told that the lock has failed. -/
  woken : ∀ i r, s.placeOf i = .asleep r → r.manager = m →
    ∀ moves t, s₁.run invoke moves = some t →
      (s₁.outcomeOn invoke i moves = none ∧ (t.placeOf i = .asleep r ∨ t.placeOf i = .asking r)) ∨
        s₁.outcomeOn invoke i moves = some (.failed .lockFailed)

/-- **A shutdown wakes everybody who sleeps on the manager, unless the manager is poisoned**: then it
wakes nobody. -/
theorem Reachable.shutdown_wakes {chosen : Nat} (hs : Reachable invoke s)
    (hj : s.placeOf j = .stopping m) (hM : s.manager? m = some M)
    (hm : s.move invoke (.run j chosen) = some s₁) (hr : s₁.run invoke moves = some t) :
    (M.poisoned = false → Wakes invoke m s s₁ t) ∧
      (M.poisoned = true → LeavesAsleep invoke m s s₁ j) := by
  have hs₁ := hs.move hm
  have hlt := (List.getElem?_eq_some_iff.1 (mem_places_of_placeOf hj nofun)).1
  constructor
  · intro hp
    obtain ⟨-, u, hle, hu, hf, -⟩ | ⟨hturn, -⟩ := move_cases hm j
    · have hman := hs.registered.manager? hu hf m
      obtain ⟨hshift, hwake⟩ : u.shift = .replace m (some M.shut) ∧ u.wake = .all m := by
        obtain ⟨_, -, hu⟩ := (hj ▸ hu).of_stopping
        cases hu with
        | barred hM₀ hbad =>
          obtain rfl := Option.some.inj (hM.symm.trans hM₀)
          rw [hp] at hbad
          cases hbad
        | stopped hM₀ =>
          obtain rfl := Option.some.inj (hM.symm.trans hM₀)
          exact ⟨rfl, rfl⟩
      have hshut : s₁.manager? m = some M.shut := by rw [hman, hshift, Shift.lookUp, if_pos rfl]
      have h₁ := Barred.of_manager hs₁ hshut (Manager.refusal?_of_closed hp rfl)
      refine ⟨fun i r hi hrm => ?_, fun i r hi hrm => ?_⟩
      · have hne : i ≠ j := by
          rintro rfl
          rw [hj] at hi
          cases hi
        have hl : j ≤ (u.wake.apply s.places).length := by rw [length_apply]; exact hle
        have hasks : s₁.placeOf i = .asking r := by
          refine placeOf_eq ?_
          rw [hf.places, getElem?_putAt hl, if_neg hne, hwake, Wake.apply, List.getElem?_map,
            place?_of_asleep hi, Option.map_some, awakened, if_pos hrm]
        exact ⟨hasks, (h₁.asking hshut hasks hrm).2⟩
      · -- whoever slept would have slept on the manager when it was closed
        have hi₁ := h₁.asleep hr hi hrm
        have hopen := hs₁.open_of_asleep hshut hp
          (List.mem_of_getElem? (place?_of_asleep hi₁)) hrm
        cases hopen
    · simp [Move.isTurnOf] at hturn
  · intro hp
    have h := Barred.of_manager hs hM (Manager.refusal?_of_poisoned hp)
    obtain rfl : s₁ = s.finish j (.failed .lockFailed) :=
      Option.some.inj (hm.symm.trans ((h.stopping hM hj).1 chosen))
    have h₁ := h.move hm
    have hM₁ : (s.finish j (.failed .lockFailed)).manager? m = some M := by
      exact (manager?_of_managers_eq (managers_put s j _) m).trans hM
    have hasleep : ∀ i r, s.placeOf i = .asleep r → r.manager = m →
        (s.finish j (.failed .lockFailed)).placeOf i = .asleep r := by
      intro i r hi hrm
      have hne : i ≠ j := by
        rintro rfl
        rw [hj] at hi
        cases hi
      rw [← hi, placeOf, placeOf, finish, places_put, getElem?_putAt (Nat.le_of_lt hlt), if_neg hne]
    refine ⟨rfl, hasleep, fun hb i r hi hrm moves t hr hrouse => ?_,
      fun i r hi hrm moves t hr => h₁.waiting hM₁ (.inl (hasleep i r hi hrm)) hrm hr⟩
    have hall : s.run invoke (.run j chosen :: moves) = some t := by
      simp only [State.run, hm, Option.bind_some, hr]
    exact h.sleeps_on hb hi hrm hall (by simpa using hrouse)

/-- The hypotheses are satisfiable: of a pool for one, the context is lent and one opener sleeps when
the pool is shut down; once as it is, and once after the sink has panicked at the return of the
context. -/
theorem shutdown_wakes_one_asleep :
    let before : List (Move Unit) :=
      [.begin 0 (.establish 0 (.pool ⟨1, 1, 1⟩)), .run 0 0, .run 0 0,
        .begin 1 (.acquire ⟨1⟩ .hold none), .run 1 0, .begin 2 (.acquire ⟨1⟩ .hold none), .run 2 0]
    let broken : List (Move Unit) := [.arm "", .handle 1 (.close ⟨1⟩), .run 1 0]
    (∃ (s t : State Unit),
      (initial [plain]).run inert (before ++ [.begin 3 (.shutDown ⟨1⟩)]) = some s ∧
      s.placeOf 2 = .asleep ⟨⟨1⟩, .hold, none⟩ ∧ s.placeOf 3 = .stopping ⟨1⟩ ∧
      s.move inert (.run 3 0) = some t ∧ Wakes inert ⟨1⟩ s t t) ∧
    ∃ (s t : State Unit),
      (initial [plain]).run inert (before ++ broken ++ [.begin 3 (.shutDown ⟨1⟩)]) = some s ∧
      s.placeOf 2 = .asleep ⟨⟨1⟩, .hold, none⟩ ∧ s.placeOf 3 = .stopping ⟨1⟩ ∧
      s.move inert (.run 3 0) = some t ∧ LeavesAsleep inert ⟨1⟩ s t 3 := by
  intro before broken
  have hsound : Reachable inert _ := ⟨[plain], before ++ [.begin 3 (.shutDown ⟨1⟩)], rfl⟩
  have hpoisoned : Reachable inert _ :=
    ⟨[plain], before ++ broken ++ [.begin 3 (.shutDown ⟨1⟩)], rfl⟩
  constructor
  · exact ⟨_, _, rfl, rfl, rfl, rfl, (hsound.shutdown_wakes rfl rfl
      (show State.move inert _ (.run 3 0) = _ from rfl)
      (show State.run inert _ [] = _ from rfl)).1 rfl⟩
  · exact ⟨_, _, rfl, rfl, rfl, rfl, (hpoisoned.shutdown_wakes rfl rfl
      (show State.move inert _ (.run 3 0) = _ from rfl)
      (show State.run inert _ [] = _ from rfl)).2 rfl⟩

/-- **An opener may sleep for ever although its manager was shut down.**  Of a pool for one, the
context is lent and an opener without a time sleeps; the sink panics at the return of the context;
the shutdown after that returns, and nobody can take a step any more. -/
theorem asleep_after_shutdown :
    let moves : List (Move Unit) :=
      [.begin 0 (.establish 0 (.pool ⟨1, 1, 1⟩)), .run 0 0, .run 0 0,
        .begin 1 (.acquire ⟨1⟩ .hold none), .run 1 0, .begin 2 (.acquire ⟨1⟩ .hold none), .run 2 0,
        .arm "recycled", .handle 1 (.close ⟨1⟩), .run 1 0, .begin 3 (.shutDown ⟨1⟩), .run 3 0]
    ∃ t : State Unit, (initial [plain]).run inert moves = some t ∧
      t.outcome? 1 = some (.panicked sinkPayload) ∧
      t.outcome? 3 = some (.failed .lockFailed) ∧
      t.placeOf 2 = .asleep ⟨⟨1⟩, .hold, none⟩ ∧
      (∀ i chosen, t.move inert (.run i chosen) = none) ∧
      ∀ later u, t.run inert later = some u → .rouse 2 ∉ later →
        u.placeOf 2 = .asleep ⟨⟨1⟩, .hold, none⟩ := by
  intro moves
  have hs : Reachable inert _ := ⟨[plain], moves, rfl⟩
  refine ⟨_, rfl, rfl, rfl, rfl, fun i chosen => ?_, fun later u hu hrouse => ?_⟩
  · match i with
    | 0 | 1 | 2 | 3 => rfl
    | i + 4 => rfl
  · exact (Barred.of_manager hs rfl rfl).sleeps_on rfl rfl rfl hu hrouse

end State
end Lending
end HookPool
