/-
# Counting callers

Whatever is said of how many callers wait for a manager, build for it or hold its contexts is a sum
over the places of all callers.  A turn moves one caller and wakes some, so that a sum changes by
what it counts for the place that the caller leaves and for the one that it comes to
(`Follows.total`); whoever is woken waits as before.  Only the number of sleepers is lowered by a
wake-up (`Follows.total_sleeps`).
-/
import HookPool.Proofs.Lending.Moves

namespace HookPool
namespace Lending

variable {σ α : Type}

/-! ## Sums -/

/-- The sum of what `f` counts for each of them. -/
def total (f : α → Nat) : List α → Nat
  | [] => 0
  | x :: xs => f x + total f xs

theorem total_nil (f : α → Nat) : total f [] = 0 :=
  rfl

theorem total_cons (f : α → Nat) (x : α) (xs : List α) : total f (x :: xs) = f x + total f xs :=
  rfl

theorem total_append (f : α → Nat) (xs ys : List α) :
    total f (xs ++ ys) = total f xs + total f ys := by
  induction xs with
  | nil => simp [total_nil]
  | cons x xs ih => rw [List.cons_append, total_cons, total_cons, ih, Nat.add_assoc]

/-- A change of each of them that `f` does not see. -/
theorem total_map {f : α → Nat} {g : α → α} (h : ∀ x, f (g x) = f x) (xs : List α) :
    total f (xs.map g) = total f xs := by
  induction xs with
  | nil => rfl
  | cons x xs ih => rw [List.map_cons, total_cons, total_cons, h, ih]

/-- What is counted for one of them is part of the sum. -/
theorem le_total (f : α → Nat) {x : α} {xs : List α} (h : x ∈ xs) : f x ≤ total f xs := by
  induction xs with
  | nil => cases h
  | cons y xs ih =>
    rw [total_cons]
    rcases List.mem_cons.1 h with rfl | h
    · omega
    · have := ih h; omega

/-- A sum is zero only if nothing is counted for any of them. -/
theorem eq_zero_of_total {f : α → Nat} {x : α} {xs : List α} (h : total f xs = 0)
    (hx : x ∈ xs) : f x = 0 := by
  have := le_total f hx
  omega

theorem total_eq_zero {f : α → Nat} {xs : List α} (h : ∀ x ∈ xs, f x = 0) : total f xs = 0 := by
  induction xs with
  | nil => rfl
  | cons x xs ih =>
    rw [total_cons, h x (List.mem_cons_self ..), ih fun y hy => h y (List.mem_cons_of_mem _ hy)]

/-- What is counted for two of them is part of the sum. -/
theorem add_le_total (f : α → Nat) {xs : List α} {i j : Nat} {x y : α} (hij : i ≠ j)
    (hx : xs[i]? = some x) (hy : xs[j]? = some y) : f x + f y ≤ total f xs := by
  induction xs generalizing i j with
  | nil => simp at hx
  | cons z xs ih =>
    rw [total_cons]
    match i, j with
    | 0, 0 => exact absurd rfl hij
    | 0, j + 1 =>
      obtain rfl := Option.some.inj hx
      have := le_total f (List.mem_of_getElem? (l := xs) hy)
      omega
    | i + 1, 0 =>
      obtain rfl := Option.some.inj hy
      have := le_total f (List.mem_of_getElem? (l := xs) hx)
      omega
    | i + 1, j + 1 =>
      have := ih (fun h => hij (congrArg _ h)) hx hy
      omega

theorem exists_of_total_pos {f : α → Nat} {xs : List α} (h : 0 < total f xs) :
    ∃ (i : Nat) (x : α), xs[i]? = some x ∧ 0 < f x := by
  induction xs with
  | nil => exact absurd h (Nat.lt_irrefl 0)
  | cons x xs ih =>
    rw [total_cons] at h
    rcases Nat.eq_zero_or_pos (f x) with h0 | hpos
    · obtain ⟨i, y, hy, hpos⟩ := ih (by omega)
      exact ⟨i + 1, y, hy, hpos⟩
    · exact ⟨0, x, rfl, hpos⟩

/-- **How a sum changes when one of them changes.** -/
theorem total_set (f : α → Nat) {xs : List α} {i : Nat} {x : α} (h : xs[i]? = some x) (y : α) :
    total f (xs.set i y) + f x = total f xs + f y := by
  induction xs generalizing i with
  | nil => simp at h
  | cons x₀ xs ih =>
    cases i with
    | zero =>
      obtain rfl := Option.some.inj h
      simp only [List.set_cons_zero, total_cons]
      omega
    | succ i =>
      have := ih (i := i) h
      simp only [List.set_cons_succ, total_cons]
      omega

/-! ## Sums over places -/

theorem total_putAt (f : Place σ → Nat) (h0 : f (.finished .done) = 0)
    {places : List (Place σ)} {i : Nat} (hi : i ≤ places.length) (q : Place σ) :
    total f (putAt places i q) + f ((places[i]?).getD (.finished .done)) =
      total f places + f q := by
  unfold putAt
  split
  · rename_i hlt
    rw [List.getElem?_eq_getElem hlt, Option.getD_some]
    exact total_set f (List.getElem?_eq_getElem hlt) q
  · rename_i hge
    rw [List.getElem?_eq_none (by omega), Option.getD_none, h0, total_append, total_cons, total_nil]
    omega

theorem getElem?_putAt {places : List (Place σ)} {i : Nat} (hi : i ≤ places.length)
    (q : Place σ) (j : Nat) : (putAt places i q)[j]? = if j = i then some q else places[j]? := by
  unfold putAt
  split
  · rename_i hlt
    rw [List.getElem?_set]
    simp only [eq_comm (a := i), hlt, if_true]
  · have hlen : i = places.length := by omega
    subst hlen
    rcases Nat.lt_trichotomy j places.length with hj | rfl | hj
    · rw [List.getElem?_append_left hj, if_neg (by omega)]
    · simp
    · rw [List.getElem?_eq_none (by simp; omega), if_neg (by omega),
        List.getElem?_eq_none (by omega)]

/-! ## Wake-ups -/

theorem mem_sleepersIn {m : ManagerId} {places : List (Place σ)} {i : Nat}
    (h : i ∈ sleepersIn m places) : ∃ r, places[i]? = some (.asleep r) ∧ r.manager = m := by
  obtain ⟨-, h⟩ := List.mem_filter.1 h
  obtain ⟨p, hp, hs⟩ := (Option.any_eq_true _ _).1 h
  cases p <;> simp [Place.sleepsOn] at hs
  exact ⟨_, hp, hs⟩

/-- **Waking one sleeper of a manager**: there is none, or one of them asks again. -/
theorem apply_one (m : ManagerId) (chosen : Nat) (places : List (Place σ)) :
    (sleepersIn m places = [] ∧ (Wake.one m chosen).apply places = places) ∨
      ∃ i r, places[i]? = some (.asleep r) ∧ r.manager = m ∧
        (Wake.one m chosen).apply places = places.set i (.asking r) := by
  have hmod : ∀ i, i ∈ sleepersIn m places → ∃ r, places[i]? = some (.asleep r) ∧
      r.manager = m ∧ places.modify i (State.awakened m) = places.set i (.asking r) := by
    intro i hi
    obtain ⟨r, hr, hm⟩ := mem_sleepersIn hi
    refine ⟨r, hr, hm, ?_⟩
    apply List.ext_getElem?
    intro j
    rw [List.getElem?_modify, List.getElem?_set]
    split
    · rename_i hij
      subst hij
      rw [if_pos (List.getElem?_eq_some_iff.1 hr).1, hr]
      simp [State.awakened, hm]
    · simp
  simp only [Wake.apply]
  split
  · rename_i i hi
    have hmem : i ∈ sleepersIn m places := by
      split at hi
      · obtain rfl := Option.some.inj hi
        simpa using ‹(sleepersIn m places).contains chosen = true›
      · exact List.mem_of_head? hi
    obtain ⟨r, hr, hm, he⟩ := hmod i hmem
    exact .inr ⟨i, r, hr, hm, he⟩
  · rename_i hn
    refine .inl ⟨?_, rfl⟩
    split at hn
    · cases hn
    · exact List.head?_eq_none_iff.1 hn

theorem length_apply (w : Wake) (places : List (Place σ)) :
    (w.apply places).length = places.length := by
  cases w with
  | nobody => rfl
  | one m chosen =>
    obtain ⟨-, h⟩ | ⟨i, r, -, -, h⟩ := apply_one m chosen places <;> simp [h]
  | all m => simp [Wake.apply]

/-- What is counted for a sleeper and for an opener that asks alike does not change by a wake-up. -/
def Steady (f : Place σ → Nat) : Prop :=
  ∀ r, f (.asleep r) = f (.asking r)

theorem Steady.awakened {f : Place σ → Nat} (hf : Steady f) (m : ManagerId) (p : Place σ) :
    f (State.awakened m p) = f p := by
  unfold State.awakened
  split
  · split
    · exact (hf _).symm
    · rfl
  · rfl

theorem total_apply {f : Place σ → Nat} (hf : Steady f) (w : Wake) (places : List (Place σ)) :
    total f (w.apply places) = total f places := by
  cases w with
  | nobody => rfl
  | one m chosen =>
    obtain ⟨-, h⟩ | ⟨i, r, hi, -, h⟩ := apply_one m chosen places
    · rw [h]
    · have := total_set f hi (.asking r)
      rw [h]
      rw [hf r] at this
      omega
  | all m => exact total_map (hf.awakened m) places

theorem placeAt_apply {f : Place σ → Nat} (hf : Steady f) (w : Wake) (places : List (Place σ))
    (i : Nat) : f (((w.apply places)[i]?).getD (.finished .done)) =
      f ((places[i]?).getD (.finished .done)) := by
  cases w with
  | nobody => rfl
  | one m chosen =>
    obtain ⟨-, h⟩ | ⟨j, r, hj, -, h⟩ := apply_one m chosen places
    · rw [h]
    · rw [h, List.getElem?_set]
      split
      · rename_i hij
        subst hij
        rw [if_pos (List.getElem?_eq_some_iff.1 hj).1, hj]
        exact (hf r).symm
      · rfl
  | all m =>
    simp only [Wake.apply, List.getElem?_map]
    cases places[i]? with
    | none => rfl
    | some p => exact hf.awakened m p

/-- **A turn changes a sum by what it counts for the two places of the caller.** -/
theorem State.Follows.total {s t : State σ} {i : Nat} {u : Upshot σ} (h : s.Follows t i u)
    (hi : i ≤ s.places.length) {f : Place σ → Nat} (hf : Steady f)
    (h0 : f (.finished .done) = 0) :
    total f t.places + f (s.placeOf i) = total f s.places + f u.place := by
  have hl : i ≤ (u.wake.apply s.places).length := by rw [length_apply]; exact hi
  have := total_putAt f h0 hl u.place
  rw [placeAt_apply hf, total_apply hf, ← h.places] at this
  exact this

/-! ## What callers have to do with a manager -/

namespace Place

/-- The caller waits for a context of the manager, awake or asleep. -/
@[simp] def waits (k : ManagerId) : Place σ → Nat
  | .asking r | .asleep r => if r.manager = k then 1 else 0
  | _ => 0

@[simp] def sleeps (k : ManagerId) : Place σ → Nat
  | .asleep r => if r.manager = k then 1 else 0
  | _ => 0

/-- The caller has a slot of the manager in which a context is being built, or was, and is not yet
counted, or was not. -/
@[simp] def builds (k : ManagerId) : Place σ → Nat
  | .building r | .grown r _ | .abandoned r _ => if r.manager = k then 1 else 0
  | _ => 0

/-- The caller has a context that the manager has lent and that was not given back. -/
@[simp] def holds (k : ManagerId) : Place σ → Nat
  | .running _ _ _ c | .holding _ c | .refused c | .returning _ _ c =>
    if c.owner = some k then 1 else 0
  | _ => 0

/-- The contexts that the manager has parted with and that are not yet counted as destroyed. -/
@[simp] def removes (k : ManagerId) : Place σ → Nat
  | .evicting m _ _ => if m = k then 1 else 0
  | .draining m _ _ rest => if m = k then rest.length else 0
  | _ => 0

end Place

theorem steady_waits (k : ManagerId) : Steady (Place.waits (σ := σ) k) := fun _ => rfl

theorem steady_builds (k : ManagerId) : Steady (Place.builds (σ := σ) k) := fun _ => rfl

theorem steady_holds (k : ManagerId) : Steady (Place.holds (σ := σ) k) := fun _ => rfl

theorem steady_removes (k : ManagerId) : Steady (Place.removes (σ := σ) k) := fun _ => rfl

/-! ## Sleepers -/

theorem total_sleeps_of_sleepersIn {m : ManagerId} {places : List (Place σ)}
    (h : sleepersIn m places = []) : total (Place.sleeps m) places = 0 := by
  refine total_eq_zero fun p hp => ?_
  obtain ⟨i, hi⟩ := List.mem_iff_getElem?.1 hp
  refine Decidable.byContradiction fun hne => ?_
  have hmem : i ∈ sleepersIn m places := by
    refine List.mem_filter.2 ⟨List.mem_range.2 (List.getElem?_eq_some_iff.1 hi).1, ?_⟩
    rw [hi]
    cases p <;> simp_all [Place.sleeps, Place.sleepsOn]
  rw [h] at hmem
  cases hmem

/-- How many of `n` sleepers of the manager are woken. -/
@[simp] def Wake.count (k : ManagerId) (n : Nat) : Wake → Nat
  | .nobody => 0
  | .one m _ => if m = k then 1 else 0
  | .all m => if m = k then n else 0

/-- **A wake-up of one lowers the number of sleepers by one, a wake-up of all to zero.** -/
theorem total_sleeps_apply (k : ManagerId) (w : Wake) (places : List (Place σ)) :
    total (Place.sleeps k) (w.apply places) =
      total (Place.sleeps k) places - w.count k (total (Place.sleeps k) places) := by
  cases w with
  | nobody => rfl
  | one m chosen =>
    obtain ⟨h0, h⟩ | ⟨i, r, hi, rfl, h⟩ := apply_one m chosen places
    · rw [h]
      simp only [Wake.count]
      split
      · rename_i hk
        subst hk
        have := total_sleeps_of_sleepersIn h0
        omega
      · rfl
    · have := total_set (Place.sleeps k) hi (.asking r)
      rw [h]
      simp only [Place.sleeps, Wake.count] at this ⊢
      omega
  | all m =>
    simp only [Wake.apply, Wake.count]
    split
    · rename_i hk
      subst hk
      rw [Nat.sub_self]
      refine total_eq_zero fun p hp => ?_
      obtain ⟨q, -, rfl⟩ := List.mem_map.1 hp
      unfold State.awakened
      split
      · split <;> simp_all [Place.sleeps]
      · rename_i h
        cases q <;> simp_all [Place.sleeps]
    · rename_i hk
      refine total_map (fun q => ?_) places
      simp only [State.awakened]
      split
      · split <;> simp_all [Place.sleeps]
      · rfl

/-- **Whoever is in a place after a wake-up was there before, or has slept and asks again.** -/
theorem of_getElem?_apply {w : Wake} {places : List (Place σ)} {i : Nat} {q : Place σ}
    (h : (w.apply places)[i]? = some q) :
    places[i]? = some q ∨ ∃ r, places[i]? = some (.asleep r) ∧ q = .asking r := by
  cases w with
  | nobody => exact .inl h
  | one m chosen =>
    obtain ⟨-, he⟩ | ⟨j, r, hj, -, he⟩ := apply_one m chosen places
    · exact .inl (he ▸ h)
    · rw [he, List.getElem?_set] at h
      split at h
      · subst_vars
        rw [if_pos (List.getElem?_eq_some_iff.1 hj).1] at h
        exact .inr ⟨r, hj, (Option.some.inj h).symm⟩
      · exact .inl h
  | all m =>
    rw [Wake.apply, List.getElem?_map] at h
    obtain ⟨p, hp, rfl⟩ := Option.map_eq_some_iff.1 h
    unfold State.awakened
    split
    · split
      · exact .inr ⟨_, hp, rfl⟩
      · exact .inl hp
    · exact .inl hp

/-- Whoever does not sleep is not moved by a wake-up. -/
theorem getElem?_apply {w : Wake} {places : List (Place σ)} {i : Nat}
    (h : ∀ r, places[i]? ≠ some (.asleep r)) : (w.apply places)[i]? = places[i]? := by
  cases hq : (w.apply places)[i]? with
  | none =>
    rw [List.getElem?_eq_none_iff, length_apply] at hq
    exact (List.getElem?_eq_none_iff.2 hq).symm
  | some q =>
    rcases of_getElem?_apply hq with hp | ⟨r, hp, -⟩
    · exact hp.symm
    · exact absurd hp (h r)

namespace State

/-- A turn in which sleepers are woken is not the turn of a sleeper. -/
theorem Turn.awake {invoke : Invoke σ} {s : State σ} {i : Nat} {mv : Move σ} {p : Place σ}
    {u : Upshot σ} (h : Turn invoke s i mv p u) : u.wake = .nobody ∨ ∀ r, p ≠ .asleep r := by
  cases h with
  | rousing => exact .inl rfl
  | beginning h => cases h <;> exact .inr fun _ h => nomatch h
  | opening h => cases h <;> exact .inr fun _ h => nomatch h
  | givingBack h => cases h <;> exact .inr fun _ h => nomatch h
  | stopping h => cases h <;> exact .inr fun _ h => nomatch h
  | making h => cases h <;> exact .inr fun _ h => nomatch h
  | dealing h => cases h <;> exact .inr fun _ h => nomatch h
  | works => exact .inl rfl

/-- Nobody is woken in its own turn. -/
theorem placeOf_apply {s : State σ} {w : Wake} {i : Nat}
    (hw : w = .nobody ∨ ∀ r, s.placeOf i ≠ .asleep r) :
    ((w.apply s.places)[i]?).getD (.finished .done) = s.placeOf i := by
  rcases hw with rfl | hw
  · rfl
  · rw [getElem?_apply fun r hr => hw r (placeOf_eq hr)]
    rfl

/-- **How a turn changes the number of sleepers.** -/
theorem Follows.total_sleeps {s t : State σ} {i : Nat} {u : Upshot σ} (h : s.Follows t i u)
    (hi : i ≤ s.places.length) (hw : u.wake = .nobody ∨ ∀ r, s.placeOf i ≠ .asleep r)
    (k : ManagerId) :
    Lending.total (Place.sleeps k) t.places + (s.placeOf i).sleeps k =
      Lending.total (Place.sleeps k) s.places -
        u.wake.count k (Lending.total (Place.sleeps k) s.places) + u.place.sleeps k := by
  have hl : i ≤ (u.wake.apply s.places).length := by rw [length_apply]; exact hi
  have hput := total_putAt (Place.sleeps k) rfl hl u.place
  rw [placeOf_apply hw, total_sleeps_apply, ← h.places] at hput
  exact hput

end State
end Lending
end HookPool
