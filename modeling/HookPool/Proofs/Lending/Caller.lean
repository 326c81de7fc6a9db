/-
# What a run means for one caller

Seen from one caller, a move is a turn of its own or it is not.  Others leave it where it is, unless
it sleeps and they wake it (`move_cases`).  So what a caller comes to can be told in advance, where
only its own turns matter: `Comes invoke s i o n` says that on every calm run from `s` the next
outcome that the caller `i` comes to is `o`, after at most `n` turns of its own, and that until then
it can always take a turn.

`Ends` says of all runs, whoever comes to grief on them, that the outcome is one of several.

Both are proved by a bound of the turns that are left, which goes down in each turn of the caller
and does not go up in other moves (`ComesOn.of_rank`).
-/
import HookPool.Lending.Schedule
import HookPool.Proofs.Lending.Registry

namespace HookPool
namespace Lending

variable {σ : Type}

/-- The move is a turn of the caller. -/
def Move.isTurnOf (i : Nat) : Move σ → Bool
  | .begin caller _ | .run caller _ | .handle caller _ | .use caller _ | .rouse caller => caller = i
  | .tick _ | .arm _ => false

/-- How many of the moves are turns of the caller. -/
def turnsOf (i : Nat) (moves : List (Move σ)) : Nat :=
  moves.countP (Move.isTurnOf i)

namespace State

variable {invoke : Invoke σ} {s t : State σ} {mv : Move σ} {moves : List (Move σ)} {i j : Nat}
  {p : Place σ} {u : Upshot σ} {o o' : Outcome} {m : ManagerId} {M : Manager σ}

/-! ## One move -/

theorem Turn.isTurnOf (h : Turn invoke s i mv p u) : mv.isTurnOf j = decide (i = j) := by
  cases h <;> rfl

/-- The caller is where its turn leads. -/
theorem Follows.placeOf_self (h : s.Follows t i u) (hi : i ≤ s.places.length) :
    t.placeOf i = u.place := by
  have hl : i ≤ (u.wake.apply s.places).length := by rw [length_apply]; exact hi
  refine placeOf_eq ?_
  rw [h.places, getElem?_putAt hl, if_pos rfl]

theorem placeOf_put (hi : i ≤ s.places.length) (p : Place σ) : (s.put i p).placeOf i = p := by
  refine placeOf_eq ?_
  rw [places_put, getElem?_putAt hi, if_pos rfl]

/-- Others are where they were, unless they are woken. -/
theorem Follows.placeOf_other (h : s.Follows t i u) (hi : i ≤ s.places.length) (hj : j ≠ i) :
    t.placeOf j = s.placeOf j ∨ ∃ r, s.placeOf j = .asleep r ∧ t.placeOf j = .asking r := by
  have hl : i ≤ (u.wake.apply s.places).length := by rw [length_apply]; exact hi
  have hat : t.places[j]? = (u.wake.apply s.places)[j]? := by
    rw [h.places, getElem?_putAt hl, if_neg hj]
  cases hq : (u.wake.apply s.places)[j]? with
  | none =>
    have hnone : s.places[j]? = none := by
      rw [List.getElem?_eq_none_iff] at hq ⊢
      rwa [length_apply] at hq
    exact .inl (by simp only [placeOf, hat, hq, hnone])
  | some q =>
    rw [hq] at hat
    rcases of_getElem?_apply hq with hp | ⟨r, hp, rfl⟩
    · exact .inl (by rw [placeOf_eq hat, placeOf_eq hp])
    · exact .inr ⟨r, placeOf_eq hp, placeOf_eq hat⟩

/-- **A move is a turn of a caller, or leaves the caller where it is**, unless it is woken. -/
theorem move_cases (h : s.move invoke mv = some t) (i : Nat) :
    (mv.isTurnOf i = true ∧ ∃ u, i ≤ s.places.length ∧ Turn invoke s i mv (s.placeOf i) u ∧
        s.Follows t i u ∧ t.placeOf i = u.place) ∨
      (mv.isTurnOf i = false ∧
        (t.placeOf i = s.placeOf i ∨ ∃ r, s.placeOf i = .asleep r ∧ t.placeOf i = .asking r)) := by
  obtain ⟨k, u, hk, hu, hf⟩ | hidle := move_turn h
  · by_cases hki : k = i
    · subst hki
      exact .inl ⟨by rw [hu.isTurnOf, decide_eq_true rfl], u, hk, hu, hf, hf.placeOf_self hk⟩
    · exact .inr ⟨by rw [hu.isTurnOf, decide_eq_false hki], hf.placeOf_other hk (Ne.symm hki)⟩
  · refine .inr ⟨?_, .inl (by rw [placeOf, placeOf, hidle.places])⟩
    obtain ⟨nanos, rfl⟩ | ⟨text, rfl⟩ := hidle.move <;> rfl

/-- Nobody who has begun something is forgotten. -/
theorem length_places_le (h : s.move invoke mv = some t) :
    s.places.length ≤ t.places.length := by
  obtain ⟨k, u, hk, hu, hf⟩ | hidle := move_turn h
  · have hl := length_apply u.wake s.places
    rw [hf.places, putAt]
    split
    · simp only [List.length_set, hl, Nat.le_refl]
    · simp only [List.length_append, hl, Nat.le_add_right]
  · exact Nat.le_of_eq (congrArg List.length hidle.places).symm

/-- Whoever has finished stays where it is until it begins something. -/
theorem finished_of_move (hm : s.move invoke mv = some t)
    (hmv : ∀ operation, mv ≠ .begin i operation) (ho : s.placeOf i = .finished o) :
    t.placeOf i = .finished o := by
  obtain ⟨-, u, -, hu, -, -⟩ | ⟨-, hplace | ⟨r, hr, -⟩⟩ := move_cases hm i
  · rw [ho] at hu
    obtain ⟨operation, rfl, -⟩ := hu.of_finished
    exact absurd rfl (hmv operation)
  · exact hplace.trans ho
  · rw [ho] at hr
    cases hr

/-- A turn of a caller that is there brings no new one. -/
theorem length_places_eq (hm : s.move invoke mv = some t) (hmv : mv.isTurnOf i = true)
    (hi : i < s.places.length) : t.places.length = s.places.length := by
  obtain ⟨-, u, -, -, hf, -⟩ | ⟨hno, -⟩ := move_cases hm i
  · have hl := length_apply u.wake s.places
    rw [hf.places, putAt, if_pos (by rw [hl]; exact hi), List.length_set, hl]
  · rw [hmv] at hno
    cases hno

theorem place?_of_placeOf (h : s.placeOf i = p) (hi : i < s.places.length) :
    s.places[i]? = some p := by
  cases hp : s.places[i]? with
  | none => exact absurd hi (Nat.not_lt.2 (List.getElem?_eq_none_iff.1 hp))
  | some q => rw [← h, placeOf_eq hp]

/-- Whoever is somewhere else than at its last outcome has begun something. -/
theorem mem_places_of_placeOf (h : s.placeOf i = p) (hp : ∀ o, p ≠ .finished o) :
    s.places[i]? = some p := by
  cases hi : s.places[i]? with
  | none =>
    rw [placeOf, hi] at h
    exact absurd h.symm (hp .done)
  | some q => rw [← h, placeOf_eq hi]

theorem Calm.placeOf (h : s.Calm) (i : Nat) : (s.placeOf i).isGrieving = false := by
  unfold State.placeOf
  cases hi : s.places[i]? with
  | none => rfl
  | some q => exact h q (List.mem_of_getElem? hi)

/-- **A manager stays as long as a caller uses it.** -/
theorem manager?_of_uses (hr : s.Registered) (h : s.move invoke mv = some t)
    (hM : s.manager? m = some M) (hp : s.places[i]? = some p) (hu : p.uses m = true) :
    ∃ M', t.manager? m = some M' := by
  obtain ⟨k, v, hk, hv, hf⟩ | hidle := move_turn h
  · rw [hr.manager? hv hf, hM]
    cases hs : v.shift with
    | keep => exact ⟨M, rfl⟩
    | number => exact ⟨M, rfl⟩
    | replace m' manager =>
      by_cases hm : m = m'
      · subst hm
        cases manager with
        | some M' => exact ⟨M', by simp [Shift.lookUp]⟩
        | none =>
          -- it would have been dropped, which is possible only if nobody uses it
          have hfree : s.inUse m = false := by
            obtain ⟨caller, rfl⟩ := hv.dropped hs
            generalize s.placeOf k = q at hv
            cases hv with
            | beginning hb => cases hb; assumption
          have hused : s.inUse m = true := List.any_eq_true.2 ⟨p, List.mem_of_getElem? hp, hu⟩
          rw [hfree] at hused
          cases hused
      · exact ⟨M, by simp [Shift.lookUp, hm]⟩
  · exact ⟨M, by rw [manager?_of_managers_eq hidle.managers, hM]⟩

/-! ## Runs -/

/-- The next outcome that a caller comes to on a run, if it comes to one; its last one, if it has
not begun anything since. -/
def outcomeOn (invoke : Invoke σ) (i : Nat) (s : State σ) : List (Move σ) → Option Outcome
  | [] => s.outcome? i
  | mv :: moves =>
    match s.outcome? i with
    | some o => some o
    | none => (s.move invoke mv).bind fun t => t.outcomeOn invoke i moves

theorem outcomeOn_of_outcome? (h : s.outcome? i = some o) (moves : List (Move σ)) :
    s.outcomeOn invoke i moves = some o := by
  cases moves with
  | nil => exact h
  | cons mv moves => rw [outcomeOn, h]

theorem outcomeOn_cons (h : s.outcome? i = none) (hm : s.move invoke mv = some t)
    (moves : List (Move σ)) : s.outcomeOn invoke i (mv :: moves) = t.outcomeOn invoke i moves := by
  rw [outcomeOn, h, hm, Option.bind_some]

theorem outcome?_of_placeOf (h : s.placeOf i = .finished o) (hi : i < s.places.length) :
    s.outcome? i = some o := by
  rw [outcome?, place?_of_placeOf h hi]

theorem placeOf_of_outcome? (h : s.outcome? i = some o) :
    s.placeOf i = .finished o := by
  unfold outcome? at h
  split at h
  · obtain rfl := Option.some.inj h
    exact placeOf_eq ‹_›
  · cases h

/-- Whoever has come to an outcome has one until it begins something. -/
theorem outcome?_of_move (hm : s.move invoke mv = some t)
    (hmv : ∀ operation, mv ≠ .begin i operation) (ho : s.outcome? i ≠ none) :
    t.outcome? i ≠ none := by
  obtain ⟨o, ho⟩ := Option.ne_none_iff_exists'.1 ho
  have hplace := placeOf_of_outcome? ho
  have hi : i < s.places.length := by
    unfold outcome? at ho
    split at ho
    · exact (List.getElem?_eq_some_iff.1 ‹_›).1
    · cases ho
  rw [outcome?_of_placeOf (finished_of_move hm hmv hplace)
    (Nat.lt_of_lt_of_le hi (length_places_le hm))]
  exact Option.some_ne_none o

theorem isFree_of_outcome? (h : s.outcome? i ≠ none) : s.isFree i = true := by
  unfold outcome? at h
  unfold isFree
  split at h
  · rw [‹s.places[i]? = _›]
  · exact absurd rfl h

/-- A caller that is free is a new one, or has been there before. -/
theorem le_of_isFree (hfree : s.isFree i = true) : i ≤ s.places.length := by
  unfold isFree at hfree
  cases hi : s.places[i]? with
  | none =>
    rw [hi] at hfree
    exact Nat.le_of_eq (of_decide_eq_true hfree)
  | some p => exact Nat.le_of_lt (List.getElem?_eq_some_iff.1 hi).1

theorem outcome?_eq_none (h : s.placeOf i = p) (hp : ∀ o, p ≠ .finished o) :
    s.outcome? i = none := by
  unfold outcome?
  rw [mem_places_of_placeOf h hp]
  cases p with
  | finished o => exact absurd rfl (hp o)
  | _ => rfl

/-- **On every calm run from the state, the next outcome of the caller is `o`**: it comes to it
after at most `n` turns of its own, and until then it can always take its turn. -/
structure Comes (invoke : Invoke σ) (s : State σ) (i : Nat) (o : Outcome) (n : Nat) : Prop where
  only : ∀ moves t o', CalmRun invoke s moves t → s.outcomeOn invoke i moves = some o' → o' = o
  within : ∀ moves t, CalmRun invoke s moves t → n ≤ turnsOf i moves →
    s.outcomeOn invoke i moves = some o
  ready : ∀ moves t chosen, CalmRun invoke s moves t → s.outcomeOn invoke i moves = none →
    ∃ t', t.move invoke (.run i chosen) = some t'

/-- **On every run of a kind from the state, the next outcome of the caller is one of `Q`**: it comes
to one after at most `n` turns of its own, and until then it can always take its turn. -/
structure ComesOn (invoke : Invoke σ) (Run : State σ → List (Move σ) → State σ → Prop) (s : State σ)
    (i : Nat) (Q : Outcome → Prop) (n : Nat) : Prop where
  only : ∀ moves t o, Run s moves t → s.outcomeOn invoke i moves = some o → Q o
  within : ∀ moves t, Run s moves t → n ≤ turnsOf i moves →
    ∃ o, s.outcomeOn invoke i moves = some o
  ready : ∀ moves t chosen, Run s moves t → s.outcomeOn invoke i moves = none →
    ∃ t', t.move invoke (.run i chosen) = some t'

/-- **What a caller comes to, whatever happens**, be the run calm or not. -/
def Ends (invoke : Invoke σ) : State σ → Nat → (Outcome → Prop) → Nat → Prop :=
  ComesOn invoke fun s moves t => s.run invoke moves = some t

/-- **What a caller comes to, by the turns that it has left**: none are left at the outcome; else
there is none yet, a turn is possible, and each one leaves fewer, while other moves do not leave
more.  Of two states that follow each other on such a run, `R` says what is known. -/
theorem ComesOn.of_rank {Run : State σ → List (Move σ) → State σ → Prop}
    {R : State σ → State σ → Prop} {Q : Outcome → Prop} {P : State σ → Nat → Prop}
    (here : ∀ s u, Run s [] u → s = u)
    (next : ∀ s mv moves u, Run s (mv :: moves) u →
      ∃ t, s.move invoke mv = some t ∧ R s t ∧ Run t moves u)
    (done : ∀ s, P s 0 → ∃ o, s.outcome? i = some o ∧ Q o)
    (busy : ∀ s n, P s (n + 1) → s.outcome? i = none ∧
      ∀ chosen, ∃ t, s.move invoke (.run i chosen) = some t)
    (step : ∀ s t mv n, P s (n + 1) → R s t → s.move invoke mv = some t →
      ∃ n' ≤ if mv.isTurnOf i then n else n + 1, P t n')
    {n : Nat} (h : P s n) : ComesOn invoke Run s i Q n := by
  refine ⟨fun moves u o hr ho => ?_, fun moves u hr hn => ?_, fun moves u chosen hr hnone => ?_⟩
  · induction moves generalizing s n with
    | nil =>
      cases n with
      | zero =>
        obtain ⟨o', ho', hq⟩ := done _ h
        obtain rfl := Option.some.inj (ho.symm.trans ho')
        exact hq
      | succ n => rw [outcomeOn, (busy _ n h).1] at ho; cases ho
    | cons mv moves ih =>
      cases n with
      | zero =>
        obtain ⟨o', ho', hq⟩ := done _ h
        obtain rfl := Option.some.inj (ho.symm.trans (outcomeOn_of_outcome? ho' _))
        exact hq
      | succ n =>
        obtain ⟨t, hm, hok, hr⟩ := next _ _ _ _ hr
        rw [outcomeOn_cons (busy _ n h).1 hm] at ho
        obtain ⟨n', -, h'⟩ := step _ _ _ _ h hok hm
        exact ih h' hr ho
  · induction moves generalizing s n with
    | nil =>
      obtain rfl : n = 0 := Nat.le_zero.1 hn
      obtain ⟨o, ho, -⟩ := done _ h
      exact ⟨o, ho⟩
    | cons mv moves ih =>
      cases n with
      | zero =>
        obtain ⟨o, ho, -⟩ := done _ h
        exact ⟨o, outcomeOn_of_outcome? ho _⟩
      | succ n =>
        obtain ⟨t, hm, hok, hr⟩ := next _ _ _ _ hr
        rw [outcomeOn_cons (busy _ n h).1 hm]
        obtain ⟨n', hle, h'⟩ := step _ _ _ _ h hok hm
        refine ih h' hr ?_
        rw [turnsOf, List.countP_cons] at hn
        rw [turnsOf]
        split at hn
        · rw [if_pos ‹_›] at hle
          omega
        · rw [if_neg ‹_›] at hle
          omega
  · induction moves generalizing s n with
    | nil =>
      obtain rfl := here _ _ hr
      cases n with
      | zero =>
        obtain ⟨o, ho, -⟩ := done _ h
        rw [outcomeOn, ho] at hnone
        cases hnone
      | succ n => exact (busy _ n h).2 chosen
    | cons mv moves ih =>
      cases n with
      | zero =>
        obtain ⟨o, ho, -⟩ := done _ h
        rw [outcomeOn_of_outcome? ho] at hnone
        cases hnone
      | succ n =>
        obtain ⟨t, hm, hok, hr⟩ := next _ _ _ _ hr
        rw [outcomeOn_cons (busy _ n h).1 hm] at hnone
        obtain ⟨n', -, h'⟩ := step _ _ _ _ h hok hm
        exact ih h' hr hnone

/-- What a caller comes to while nobody comes to grief, by the turns that it has left. -/
theorem Comes.of_rank {P : State σ → Nat → Prop} (done : ∀ s, P s 0 → s.outcome? i = some o)
    (busy : ∀ s n, P s (n + 1) → s.outcome? i = none ∧
      ∀ chosen, ∃ t, s.move invoke (.run i chosen) = some t)
    (step : ∀ s t mv n, P s (n + 1) → s.Calm → s.move invoke mv = some t → t.Calm →
      ∃ n' ≤ if mv.isTurnOf i then n else n + 1, P t n')
    {n : Nat} (h : P s n) : Comes invoke s i o n := by
  have hon : ComesOn invoke (CalmRun invoke) s i (· = o) n := by
    refine ComesOn.of_rank (R := fun s t => s.Calm ∧ t.Calm) (Q := (· = o)) ?_ ?_
      (fun s hs => ⟨o, done s hs, rfl⟩) busy (fun s t mv n hs hc hm => step s t mv n hs hc.1 hm hc.2)
      h
    · intro s u hr
      cases hr
      rfl
    · intro s mv moves u hr
      cases hr with
      | cons hc hm hr => exact ⟨_, hm, ⟨hc, hr.calm_start⟩, hr⟩
  refine ⟨hon.only, fun moves t hr hn => ?_, hon.ready⟩
  obtain ⟨o', ho'⟩ := hon.within moves t hr hn
  rw [ho', hon.only moves t o' hr ho']

/-- What a caller comes to whatever happens, by the turns that it has left. -/
theorem Ends.of_rank {Q : Outcome → Prop} {P : State σ → Nat → Prop}
    (done : ∀ s, P s 0 → ∃ o, s.outcome? i = some o ∧ Q o)
    (busy : ∀ s n, P s (n + 1) → s.outcome? i = none ∧
      ∀ chosen, ∃ t, s.move invoke (.run i chosen) = some t)
    (step : ∀ s t mv n, P s (n + 1) → s.move invoke mv = some t →
      ∃ n' ≤ if mv.isTurnOf i then n else n + 1, P t n')
    {n : Nat} (h : P s n) : Ends invoke s i Q n := by
  refine ComesOn.of_rank (R := fun _ _ => True) ?_ ?_ done busy
    (fun s t mv n hs _ hm => step s t mv n hs hm) h
  · intro s u hr
    exact Option.some.inj hr
  · intro s mv moves u hr
    obtain ⟨t, hm, hr⟩ := run_cons hr
    exact ⟨t, hm, trivial, hr⟩

/-! ## One turn from the outcome -/

/-- Whoever is ready and uses a manager can take its turn while the manager is there. -/
theorem possible_of_ready (hM : s.manager? m = some M) (hp : s.places[i]? = some p)
    (hready : p.isReady = true) (huse : p.uses m = true) (chosen : Nat) :
    ∃ t, s.move invoke (.run i chosen) = some t := by
  cases p with
  | creating factory => cases huse
  | asleep r => cases hready
  | holding tenure c => cases hready
  | refused c => cases hready
  | finished o => cases hready
  | _ => simp_all [Place.uses, State.move, step?, withManager]

/-- **Whoever comes to an outcome of `Q` in its next turn wherever it is found, comes to one**: the
others do not move it, and the manager stays as long as it is used.  `I` holds all the way. -/
theorem Ends.of_place {Q : Outcome → Prop} {I : State σ → Prop}
    (reachable : ∀ s, I s → Reachable invoke s)
    (keep : ∀ s t mv, I s → s.move invoke mv = some t → I t)
    (hready : p.isReady = true) (huse : p.uses m = true)
    (own : ∀ s mv u, I s → Turn invoke s i mv p u → ∃ o, u.place = .finished o ∧ Q o)
    (h : I s) (hM : s.manager? m = some M) (hp : s.placeOf i = p) : Ends invoke s i Q 1 := by
  have hbusy : ∀ o, p ≠ .finished o := by
    rintro o rfl
    cases hready
  refine Ends.of_rank (P := fun s n => i < s.places.length ∧
    ((n = 0 ∧ ∃ o, s.placeOf i = .finished o ∧ Q o) ∨
      (n = 1 ∧ s.placeOf i = p ∧ I s ∧ ∃ M, s.manager? m = some M))) ?done ?busy ?step
    ⟨(List.getElem?_eq_some_iff.1 (mem_places_of_placeOf hp hbusy)).1,
      .inr ⟨rfl, hp, h, M, hM⟩⟩
  case done =>
    rintro s ⟨hi, ⟨-, o, ho, hq⟩ | ⟨hn, -⟩⟩
    · exact ⟨o, outcome?_of_placeOf ho hi, hq⟩
    · cases hn
  case busy =>
    rintro s n ⟨hi, ⟨hn, -⟩ | ⟨-, hp, -, M, hM⟩⟩
    · cases hn
    · exact ⟨outcome?_eq_none hp hbusy,
        possible_of_ready hM (mem_places_of_placeOf hp hbusy) hready huse⟩
  case step =>
    rintro s t mv n ⟨hi, ⟨hn, -⟩ | ⟨hn, hp, h, M, hM⟩⟩ hm
    · cases hn
    · obtain rfl : n = 0 := Nat.succ.inj hn
      have hi' := Nat.lt_of_lt_of_le hi (length_places_le hm)
      obtain ⟨hturn, u, -, hu, -, hplace⟩ | ⟨hturn, hplace | ⟨r, hr, -⟩⟩ := move_cases hm i
      · obtain ⟨o, ho, hq⟩ := own s mv u h (hp ▸ hu)
        exact ⟨0, Nat.zero_le _, hi', .inl ⟨rfl, o, hplace.trans ho, hq⟩⟩
      · have hstay := manager?_of_uses (reachable s h).registered hm hM
          (mem_places_of_placeOf hp hbusy) huse
        exact ⟨1, by rw [hturn]; exact Nat.le_refl 1, hi',
          .inr ⟨rfl, hplace.trans hp, keep s t mv h hm, hstay⟩⟩
      · rw [hp] at hr
        rw [hr] at hready
        cases hready

end State
end Lending
end HookPool
