/-
# The tally of a manager

How many openers of a manager wait for it, sleep, or were signalled, how many build for it, hold its
contexts, or have contexts that are on their way out.  A turn changes each of these numbers by the
caller's part in it and by those who are woken (`Follows.flow`).

An opener was signalled if somebody who freed a context or a slot, or closed the manager, has woken
it, and it has not had the lock since.  No state tells it from an opener that has just come, or that
has woken up by itself; it is the moves so far that do, and `signalled` says how one of them
changes who was signalled.
-/
import HookPool.Proofs.Lending.Count

namespace HookPool
namespace Lending

variable {σ : Type}

/-! ## Sums that tell callers apart -/

/-- The sum of what `f` counts for each caller and its place. -/
def totalAt (f : Nat → Place σ → Nat) : List (Place σ) → Nat
  | [] => 0
  | p :: places => f 0 p + totalAt (fun i => f (i + 1)) places

theorem totalAt_eq_total (f : Place σ → Nat) (places : List (Place σ)) :
    totalAt (fun _ => f) places = total f places := by
  induction places with
  | nil => rfl
  | cons p places ih => rw [totalAt, total_cons, ih]

/-- Sums that agree for each caller are equal. -/
theorem totalAt_add {f g f' g' : Nat → Place σ → Nat} {places places' : List (Place σ)}
    (hl : places.length = places'.length)
    (h : ∀ i p q, places[i]? = some p → places'[i]? = some q → f i p + g i p = f' i q + g' i q) :
    totalAt f places + totalAt g places = totalAt f' places' + totalAt g' places' := by
  induction places generalizing places' f g f' g' with
  | nil =>
    cases places' with
    | nil => rfl
    | cons q places' => cases hl
  | cons p places ih =>
    cases places' with
    | nil => cases hl
    | cons q places' =>
      have h₀ := h 0 p q rfl rfl
      have hrest : totalAt (fun i => f (i + 1)) places + totalAt (fun i => g (i + 1)) places =
          totalAt (fun i => f' (i + 1)) places' + totalAt (fun i => g' (i + 1)) places' :=
        ih (Nat.succ.inj hl) fun i p q hp hq => h (i + 1) p q hp hq
      simp only [totalAt]
      omega

theorem totalAt_congr {f g : Nat → Place σ → Nat} {places : List (Place σ)}
    (h : ∀ i p, places[i]? = some p → f i p = g i p) : totalAt f places = totalAt g places := by
  induction places generalizing f g with
  | nil => rfl
  | cons p places ih =>
    rw [totalAt, totalAt, h 0 p rfl, ih fun i p hp => h (i + 1) p hp]

/-- **How a sum changes when one caller moves**, and what is counted for the others stays. -/
theorem totalAt_putAt {f g : Nat → Place σ → Nat} {places : List (Place σ)} {i : Nat} {q : Place σ}
    (hi : i ≤ places.length) (h0 : f i (.finished .done) = 0)
    (h : ∀ j p, j ≠ i → places[j]? = some p → g j p = f j p) :
    totalAt g (putAt places i q) + f i ((places[i]?).getD (.finished .done)) =
      totalAt f places + g i q := by
  induction places generalizing i f g with
  | nil =>
    obtain rfl := Nat.le_zero.1 hi
    simp [putAt, totalAt, h0]
  | cons p places ih =>
    cases i with
    | zero =>
      have hrest : totalAt (fun j => g (j + 1)) places = totalAt (fun j => f (j + 1)) places :=
        totalAt_congr fun j p hp => h (j + 1) p (Nat.succ_ne_zero j) hp
      have hput : putAt (p :: places) 0 q = q :: places := by simp [putAt]
      simp only [hput, totalAt, List.getElem?_cons_zero, Option.getD_some]
      omega
    | succ i =>
      have hput : putAt (p :: places) (i + 1) q = p :: putAt places i q := by
        simp only [putAt, List.length_cons, Nat.add_lt_add_iff_right]
        split <;> simp
      have hrest := ih (f := fun j => f (j + 1)) (g := fun j => g (j + 1))
        (Nat.le_of_succ_le_succ hi) h0 fun j p hj hp =>
          h (j + 1) p (fun he => hj (Nat.succ.inj he)) hp
      have hp := h 0 p (Nat.succ_ne_zero i).symm rfl
      simp only [hput, totalAt, List.getElem?_cons_succ]
      omega

/-! ## Who was signalled -/

namespace Place

/-- The opener is about to have the lock. -/
def isAsking : Place σ → Bool
  | .asking _ => true
  | _ => false

def isAsleep : Place σ → Bool
  | .asleep _ => true
  | _ => false

/-- The opener was signalled and is about to have the manager's lock. -/
@[simp] def heeds (k : ManagerId) (signalled : Bool) : Place σ → Nat
  | .asking r => if signalled = true ∧ r.manager = k then 1 else 0
  | _ => 0

end Place

/-- In the move a sleeper wakes up at its time or without any cause. -/
def Move.rouses (i : Nat) : Move σ → Bool
  | .rouse caller => caller = i
  | _ => false

namespace State

variable {invoke : Invoke σ} {s t : State σ} {mv : Move σ} {i : Nat} {p : Place σ} {u : Upshot σ}

/-- Who was signalled after a move from `s` to `t`, if `before` were before it: whoever slept and is
woken by somebody else, and whoever was signalled before and has not had the lock in the move. -/
def signalled (s : State σ) (mv : Move σ) (t : State σ) (before : Nat → Bool) (i : Nat) : Bool :=
  (t.placeOf i).isAsking &&
    ((s.placeOf i).isAsking && before i || (s.placeOf i).isAsleep && !mv.rouses i)

/-- Whoever comes to ask in a turn of its own has just come, or has woken up by itself. -/
theorem Turn.asking (h : Turn invoke s i mv p u) (ha : u.place.isAsking = true) :
    p.isAsking = false ∧ (p.isAsleep = true → mv.rouses i = true) := by
  have hserved (r : Request) (c : Context σ) : (r.served c).isAsking = false :=
    r.served_induction c (fun _ => rfl) (fun _ _ => rfl)
  cases h with
  | beginning h =>
    cases h with
    | opens hm => exact ⟨rfl, nofun⟩
    | _ => cases ha
  | rousing => exact ⟨rfl, fun _ => by simp [Move.rouses]⟩
  | opening h =>
    cases h with
    | lent hm hp hc ho => rw [hserved] at ha; cases ha
    | counted hm => rw [hserved] at ha; cases ha
    | _ => cases ha
  | givingBack h => cases h <;> cases ha
  | stopping h => cases h <;> cases ha
  | making h => cases h <;> cases ha
  | dealing h => cases h <;> cases ha
  | works => cases ha

/-- A sleeper that wakes up by itself does so in its own turn. -/
theorem Turn.rouses (h : Turn invoke s i mv p u) {j : Nat} (hj : j ≠ i) :
    mv.rouses j = false := by
  cases h <;> simp [Move.rouses, hj.symm]

/-- How many openers of the manager were signalled and are about to have its lock. -/
def heeding (s : State σ) (signalled : Nat → Bool) (k : ManagerId) : Nat :=
  totalAt (fun i => Place.heeds k (signalled i)) s.places

/-- **Whoever is woken from its sleep was signalled.** -/
theorem heeding_apply (w : Wake) (s : State σ) (before : Nat → Bool) (k : ManagerId) :
    totalAt (fun i => Place.heeds k ((s.placeOf i).isAsleep || before i)) (w.apply s.places) +
        total (Place.sleeps k) (w.apply s.places) =
      s.heeding before k + total (Place.sleeps k) s.places := by
  rw [← totalAt_eq_total, ← totalAt_eq_total]
  refine totalAt_add (length_apply w s.places) fun i q p hq hp => ?_
  rw [placeOf_eq hp]
  rcases of_getElem?_apply hq with hp' | ⟨r, hp', rfl⟩
  · obtain rfl := Option.some.inj (hp.symm.trans hp')
    cases p <;> simp [Place.isAsleep]
  · obtain rfl := Option.some.inj (hp.symm.trans hp')
    simp [Place.isAsleep]

/-- **How a turn changes the number of those who were signalled.** -/
theorem Follows.heeding {t : State σ} (h : s.Follows t i u) (hi : i ≤ s.places.length)
    (hu : Turn invoke s i mv (s.placeOf i) u) (before : Nat → Bool) (k : ManagerId) :
    t.heeding (s.signalled mv t before) k + (s.placeOf i).heeds k (before i) +
        Lending.total (Place.sleeps k) (u.wake.apply s.places) =
      s.heeding before k + Lending.total (Place.sleeps k) s.places := by
  have hl : i ≤ (u.wake.apply s.places).length := by rw [length_apply]; exact hi
  have hat : ∀ j, t.places[j]? = if j = i then some u.place else (u.wake.apply s.places)[j]? := by
    intro j
    rw [h.places, getElem?_putAt hl]
  have hput := totalAt_putAt (f := fun j => Place.heeds k ((s.placeOf j).isAsleep || before j))
    (g := fun j => Place.heeds k (s.signalled mv t before j)) hl rfl
    (q := u.place) fun j q hj hq => by
      have hq' : t.placeOf j = q := placeOf_eq (by rw [hat, if_neg hj, hq])
      rcases of_getElem?_apply hq with hp | ⟨r, hp, rfl⟩
      · rw [signalled, hq', placeOf_eq hp, hu.rouses hj]
        cases q <;> simp [Place.isAsking, Place.isAsleep]
      · rw [signalled, hq', placeOf_eq hp, hu.rouses hj]
        simp [Place.isAsking, Place.isAsleep]
  have hown : Place.heeds k (s.signalled mv t before i) u.place = 0 := by
    have hi' : t.placeOf i = u.place := placeOf_eq (by rw [hat, if_pos rfl])
    cases ha : u.place.isAsking with
    | true =>
      obtain ⟨hna, hr⟩ := hu.asking ha
      have hns : s.signalled mv t before i = false := by
        simp only [signalled, hna]
        cases hs : (s.placeOf i).isAsleep with
        | true => simp [hr hs]
        | false => simp
      rw [hns]
      cases u.place <;> simp
    | false =>
      generalize u.place = q at ha
      cases q <;> first | rfl | cases ha
  have hleft : Place.heeds k ((s.placeOf i).isAsleep || before i)
      (((u.wake.apply s.places)[i]?).getD (.finished .done)) =
        (s.placeOf i).heeds k (before i) := by
    rw [placeOf_apply hu.awake]
    generalize s.placeOf i = q
    cases q <;> simp [Place.isAsleep]
  have happly := heeding_apply u.wake s before k
  rw [hown, ← h.places, hleft] at hput
  simp only [State.heeding] at happly ⊢
  omega

/-- Who was signalled does not change while no caller has a turn. -/
theorem Idle.heeding {t : State σ} (h : Idle s mv t) (before : Nat → Bool) (k : ManagerId) :
    t.heeding (s.signalled mv t before) k = s.heeding before k := by
  have hat : ∀ i, t.placeOf i = s.placeOf i := fun i => by rw [placeOf, placeOf, h.places]
  rw [State.heeding, State.heeding, h.places]
  refine totalAt_congr fun i p hp => ?_
  rw [signalled, hat, placeOf_eq hp]
  cases p <;> simp [Place.isAsking, Place.isAsleep]

/-- Nobody has a signal to heed if no opener that is about to have the lock was signalled. -/
theorem heeding_eq_zero {k : ManagerId} {signalled : Nat → Bool}
    (h : ∀ i r, s.places[i]? = some (.asking r) → r.manager = k → signalled i = false) :
    s.heeding signalled k = 0 := by
  have hzero : ∀ i (p : Place σ), s.places[i]? = some p → p.heeds k (signalled i) = 0 := by
    intro i p hp
    cases p with
    | asking r =>
      rw [Place.heeds, if_neg]
      rintro ⟨hs, hr⟩
      rw [h i r hp hr] at hs
      cases hs
    | _ => rfl
  rw [State.heeding, totalAt_congr hzero, totalAt_eq_total fun _ => 0,
    total_eq_zero fun _ _ => rfl]

end State

/-! ## The tally of a manager -/

/-- How many callers have what to do with a manager. -/
structure Tally where
  /-- Openers that wait, awake or asleep. -/
  waiting : Nat := 0
  sleeping : Nat := 0
  /-- Openers that were signalled and have not had the lock since. -/
  heeding : Nat := 0
  building : Nat := 0
  held : Nat := 0
  leaving : Nat := 0

/-- The part of one caller in the tally of a manager, with whether it was signalled. -/
def Place.tally (k : ManagerId) (signalled : Bool) (p : Place σ) : Tally :=
  ⟨p.waits k, p.sleeps k, p.heeds k signalled, p.builds k, p.holds k, p.removes k⟩

/-- The tally of a manager, with who was signalled. -/
def State.tally (s : State σ) (signalled : Nat → Bool) (k : ManagerId) : Tally where
  waiting := total (Place.waits k) s.places
  sleeping := total (Place.sleeps k) s.places
  heeding := s.heeding signalled k
  building := total (Place.builds k) s.places
  held := total (Place.holds k) s.places
  leaving := total (Place.removes k) s.places

/-- A tally after a caller's part in it was `out` and has become `into`, and `woken` sleepers were
to be woken. -/
structure Tally.Flow (n : Tally) (woken : Nat) (out into n' : Tally) : Prop where
  waiting : n'.waiting + out.waiting = n.waiting + into.waiting
  sleeping : n'.sleeping + out.sleeping = n.sleeping - woken + into.sleeping
  heeding : n'.heeding + out.heeding + (n.sleeping - woken) = n.heeding + n.sleeping + into.heeding
  building : n'.building + out.building = n.building + into.building
  held : n'.held + out.held = n.held + into.held
  leaving : n'.leaving + out.leaving = n.leaving + into.leaving

/-- **A turn changes a tally by the caller's part in it and by those who are woken.** -/
theorem State.Follows.flow {invoke : Invoke σ} {s t : State σ} {i : Nat} {mv : Move σ}
    {u : Upshot σ} (h : s.Follows t i u) (hi : i ≤ s.places.length)
    (hu : Turn invoke s i mv (s.placeOf i) u) (before : Nat → Bool) (k : ManagerId) :
    (s.tally before k).Flow (u.wake.count k (s.tally before k).sleeping)
      ((s.placeOf i).tally k (before i)) (u.place.tally k false)
      (t.tally (s.signalled mv t before) k) where
  waiting := h.total hi (steady_waits k) rfl
  sleeping := h.total_sleeps hi hu.awake k
  heeding := by
    have hheed := h.heeding hi hu before k
    rw [total_sleeps_apply] at hheed
    have hnone : Place.heeds k false u.place = 0 := by
      generalize u.place = q
      cases q <;> simp
    simp only [State.tally, Place.tally, hnone]
    exact hheed
  building := h.total hi (steady_builds k) rfl
  held := h.total hi (steady_holds k) rfl
  leaving := h.total hi (steady_removes k) rfl

end Lending
end HookPool
