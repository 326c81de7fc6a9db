/-
# While a caller opens a context

From the move with which a caller begins to open a context until it has one, or has come to an end
without one, it is somewhere between asking for the lock and giving up its slot.  `Opens` says so of
a run.

What is known all the way: the caller asks for what it was told in the beginning (`Opens.request?`),
its manager is there (`Opens.manager?`), and if it has a slot in which nothing could be built, the
factory has failed it (`Opens.failedWith`).  A caller that has the lock of an open manager takes
what it finds (`taken_of_look`).
-/
import HookPool.Proofs.Lending.Books
import HookPool.Proofs.Lending.Factories
import HookPool.Proofs.Lending.Settled
import HookPool.Proofs.Lending.UnderWay

namespace HookPool
namespace Lending

variable {σ : Type}

namespace State

variable {invoke : Invoke σ} {s t t' : State σ} {mv : Move σ} {moves : List (Move σ)}
  {i chosen : Nat} {p : Place σ} {u : Upshot σ} {m : ManagerId} {M : Manager σ} {r : Request}
  {purpose : Purpose} {timeout : Option Duration} {e : Error}

/-- **The caller has begun in `s` to open a context, and is still about it in `t`.** -/
structure Opens (invoke : Invoke σ) (s : State σ) (i : Nat) (m : ManagerId) (purpose : Purpose)
    (timeout : Option Duration) (moves : List (Move σ)) (t : State σ) : Prop extends
    Since invoke s i (.acquire m purpose timeout) moves t where
  underWay : (t.placeOf i).request? ≠ none

/-! ## What an opener asks for -/

theorem request?_served (r : Request) (c : Context σ) : (r.served c).request? = none :=
  r.served_induction c (fun _ => rfl) (fun _ _ => rfl)

/-- Whoever has its context has not come to an end. -/
theorem served_ne_finished (r : Request) (c : Context σ) (o : Outcome) :
    r.served c ≠ .finished o :=
  r.served_induction c (by simp) (by simp)

/-- **An opener asks for what it asked for before**, unless it has just begun. -/
theorem Turn.request? (h : Turn invoke s i mv p u) (hmv : ∀ operation, mv ≠ .begin i operation)
    (hu : u.place.request? = some r) : p.request? = some r := by
  cases h with
  | beginning h => exact absurd rfl (hmv _)
  | opening h =>
    cases h with
    | lent | counted =>
      rw [request?_served] at hu
      cases hu
    | reserved | fellAsleep | built | buildFailed => exact hu
    | _ => cases hu
  | givingBack h => cases h <;> cases hu
  | stopping h => cases h <;> cases hu
  | making h => cases h <;> cases hu
  | dealing h => cases h <;> cases hu
  | works => cases hu
  | rousing => exact hu

theorem request?_of_move (hm : s.move invoke mv = some t)
    (hmv : ∀ operation, mv ≠ .begin i operation) (ht : (t.placeOf i).request? = some r) :
    (s.placeOf i).request? = some r := by
  obtain ⟨-, u, -, hu, -, hplace⟩ | ⟨-, hplace | ⟨r', hr', hplace⟩⟩ := move_cases hm i
  · exact hu.request? hmv (hplace ▸ ht)
  · exact hplace ▸ ht
  · rw [hplace] at ht
    rw [hr']
    exact ht

/-- A turn of an opener is one of opening. -/
theorem Turn.opens (h : Turn invoke s i mv p u) (hr : p.request? = some r) :
    (∃ chosen, mv = .run i chosen ∧ Opening s chosen p u) ∨ p = .asleep r ∧ u.shift = .keep ∧
      u.place = .asking r := by
  cases h with
  | opening h => exact .inl ⟨_, rfl, h⟩
  | rousing =>
    obtain rfl := Option.some.inj hr
    exact .inr ⟨rfl, rfl, rfl⟩
  | beginning h | givingBack h | stopping h | making h | dealing h => cases h <;> cases hr
  | works => cases hr

/-- An opener has come somewhere. -/
theorem not_finished_of_request? (h : p.request? = some r) (o : Outcome) : p ≠ .finished o := by
  rintro rfl
  cases h

namespace Opens

/-- **Whoever is still about opening a context was so before the last move.** -/
theorem underWay_before (hm : t.move invoke mv = some t')
    (hmv : ∀ operation, mv ≠ .begin i operation) (ht : (t'.placeOf i).request? ≠ none) :
    (t.placeOf i).request? ≠ none := by
  obtain ⟨r, hr⟩ := Option.ne_none_iff_exists'.1 ht
  rw [request?_of_move hm hmv hr]
  exact Option.some_ne_none r

/-- What holds when a caller begins to open a context and is kept by each move holds until it has
come to an end. -/
theorem induction {P : List (Move σ) → State σ → Prop}
    (start : ∀ t, s.move invoke (.begin i (.acquire m purpose timeout)) = some t → P [] t)
    (step : ∀ moves t mv t', Opens invoke s i m purpose timeout moves t → P moves t →
      t.move invoke mv = some t' → Opens invoke s i m purpose timeout (moves ++ [mv]) t' →
        P (moves ++ [mv]) t')
    (h : Opens invoke s i m purpose timeout moves t) : P moves t := by
  refine h.toSince.induction (P := fun moves t => (t.placeOf i).request? ≠ none → P moves t)
    (fun t hm _ => start t hm) ?_ h.underWay
  intro moves t mv t' hs ih hm hs' hu'
  have hu := underWay_before hm hs'.once_last hu'
  exact step moves t mv t' ⟨hs, hu⟩ (ih hu) hm ⟨hs', hu'⟩

/-- What is known of the move with which a caller begins to open a context. -/
theorem of_begin (hm : s.move invoke (.begin i (.acquire m purpose timeout)) = some t) :
    (∃ M, s.manager? m = some M) ∧ t = s.put i (.asking ⟨m, purpose, s.deadline? timeout⟩) ∧
      i ≤ s.places.length := by
  have hturn := move_cases hm i
  simp only [State.move, begin?] at hm
  split at hm
  · obtain ⟨M, hM, rfl⟩ := withManager_eq_some hm
    refine ⟨⟨M, hM⟩, rfl, ?_⟩
    obtain ⟨-, u, hi, -⟩ | ⟨hno, -⟩ := hturn
    · exact hi
    · rw [Move.isTurnOf, decide_eq_true rfl] at hno
      cases hno
  · cases hm

/-- **A caller asks for what it was told in the beginning.** -/
theorem request? (h : Opens invoke s i m purpose timeout moves t) :
    (t.placeOf i).request? = some ⟨m, purpose, s.deadline? timeout⟩ := by
  refine h.induction (P := fun _ t =>
    (t.placeOf i).request? = some ⟨m, purpose, s.deadline? timeout⟩) ?_ ?_
  · intro t hm
    obtain ⟨-, rfl, hi⟩ := of_begin hm
    rw [placeOf_put hi]
    rfl
  · rintro moves t mv t' - ih hm h'
    obtain ⟨r, hr⟩ := Option.ne_none_iff_exists'.1 h'.underWay
    rw [hr, ← ih, request?_of_move hm h'.once_last hr]

/-- **The manager is there as long as a caller opens a context of it.** -/
theorem manager? (h : Opens invoke s i m purpose timeout moves t) :
    ∃ M, t.manager? m = some M := by
  refine h.induction (P := fun _ t => ∃ M, t.manager? m = some M) ?_ ?_
  · intro t hm
    obtain ⟨⟨M, hM⟩, rfl, -⟩ := of_begin hm
    exact ⟨M, by rw [manager?_of_managers_eq (managers_put s i _), hM]⟩
  · rintro moves t mv t' h ⟨M, hM⟩ hm -
    have hreq := h.request?
    exact manager?_of_uses h.reaches.registered hm hM
      (mem_places_of_placeOf rfl (not_finished_of_request? hreq)) (uses_of_request? hreq)

theorem manager?_start (h : Opens invoke s i m purpose timeout moves t) :
    ∃ M, s.manager? m = some M := by
  obtain ⟨t₁, hm, -⟩ := run_cons h.run
  exact (of_begin hm).1

end Opens

/-- A deadline is the span that an opener was told, from the time on at which it came. -/
theorem of_deadline? {d : Deadline} (h : s.deadline? timeout = some d) :
    ∃ after, timeout = some after ∧ d = ⟨s.clock + after.toNanos, after⟩ ∧
      s.clock + after.toNanos < clockEnd := by
  unfold deadline? at h
  split at h
  · cases h
  · rename_i after
    dsimp only at h
    split at h
    · cases h
      exact ⟨after, rfl, rfl, ‹_›⟩
    · cases h

/-! ## Factories that fail -/

/-- On the run the caller asked the factory of its manager for a context, and the factory has failed
with the error. -/
def FailedWith (invoke : Invoke σ) (i : Nat) (s : State σ) (moves : List (Move σ)) (e : Error) :
    Prop :=
  ∃ before chosen after t r M lines, moves = before ++ .run i chosen :: after ∧
    s.run invoke before = some t ∧ t.placeOf i = .building r ∧ t.manager? r.manager = some M ∧
      t.product? M.factory = some (.failed e lines)

theorem FailedWith.append (h : FailedWith invoke i s moves e) (mv : Move σ) :
    FailedWith invoke i s (moves ++ [mv]) e := by
  obtain ⟨before, chosen, after, t, r, M, lines, rfl, h⟩ := h
  exact ⟨before, chosen, after ++ [mv], t, r, M, lines, by simp, h⟩

/-- A caller comes to give its slot up only if the factory fails. -/
theorem Turn.abandons (h : Turn invoke s i mv p u) (hu : u.place = .abandoned r e) :
    ∃ chosen M lines, mv = .run i chosen ∧ p = .building r ∧ s.manager? r.manager = some M ∧
      s.product? M.factory = some (.failed e lines) := by
  have hserved (r' : Request) (c : Context σ) : r'.served c ≠ .abandoned r e :=
    r'.served_induction c (by simp) (by simp)
  cases h with
  | opening h =>
    cases h with
    | lent | counted => exact absurd hu (hserved _ _)
    | @buildFailed r₀ M t e₀ hM hb =>
      obtain ⟨rfl, rfl⟩ := Place.abandoned.inj hu
      obtain ⟨c, lines, hc, -⟩ | ⟨e', lines, he, hproduct⟩ | ⟨payload, hp, -⟩ := build_product hb
      · cases hc
      · cases he
        exact ⟨_, M, lines, rfl, rfl, hM, hproduct⟩
      · cases hp
    | _ => cases hu
  | beginning h | givingBack h | stopping h | making h | dealing h => cases h <;> cases hu
  | works | rousing => cases hu

/-- **Whoever gives a slot up was failed by the factory**, with the very error. -/
theorem Opens.failedWith (h : Opens invoke s i m purpose timeout moves t)
    (hp : t.placeOf i = .abandoned r e) :
    FailedWith invoke i s (.begin i (.acquire m purpose timeout) :: moves) e := by
  refine h.induction (P := fun moves t => ∀ r, t.placeOf i = .abandoned r e →
    FailedWith invoke i s (.begin i (.acquire m purpose timeout) :: moves) e) ?_ ?_ r hp
  · intro t hm r hp
    obtain ⟨-, rfl, hi⟩ := Opens.of_begin hm
    rw [placeOf_put hi] at hp
    cases hp
  · intro moves t mv t' h ih hm h' r hp
    obtain ⟨-, u, -, hu, -, hplace⟩ | ⟨-, hplace | ⟨r', -, hplace⟩⟩ := move_cases hm i
    · obtain ⟨chosen, M, lines, rfl, hbuild, hM, hproduct⟩ := hu.abandons (hplace.symm.trans hp)
      exact ⟨_, chosen, [], t, r, M, lines, rfl, h.run, hbuild, hM, hproduct⟩
    · exact (ih r (hplace.symm.trans hp)).append mv
    · rw [hplace] at hp
      cases hp

/-! ## A look at the manager -/

/-- **A caller that had the lock of its manager has taken what it found**, or the sink has taken the
caller along. -/
inductive Taken (t t' : State σ) (i : Nat) (r : Request) (M : Manager σ) : Prop where
  | context {c : Context σ} {rest : Stock σ} (ho : M.stock.offer = .lent c rest)
    (hp : t'.placeOf i = r.served c) (hM : t'.manager? r.manager = some (M.withStock rest))
  | slot {rest : Stock σ} (ho : M.stock.offer = .reserved rest) (hp : t'.placeOf i = .building r)
    (hM : t'.manager? r.manager = some (M.withStock rest))
  | grief (ha : t.armed ≠ none) (hp : t'.placeOf i = .finished (.panicked sinkPayload))

/-- **Whoever has the lock takes what is there**, whatever the time. -/
theorem taken_of_look (hM : t.manager? r.manager = some M) (hp : M.poisoned = false)
    (hc : M.closed = false) (ho : M.stock.offer ≠ .full) (hi : t.placeOf i = .asking r)
    (chosen : Nat) : ∃ t', t.move invoke (.run i chosen) = some t' ∧ Taken t t' i r M := by
  have hat := mem_places_of_placeOf hi (by simp)
  have hle := Nat.le_of_lt (List.getElem?_eq_some_iff.1 hat).1
  refine ⟨t.ask i r M, ?_, ?_⟩
  · simp only [State.move, step?, hat, withManager, hM, Option.map_some]
  rw [ask, if_neg (by rw [hp]; decide), if_neg (by rw [hc]; decide)]
  cases hoffer : M.stock.offer with
  | full => exact absurd hoffer ho
  | reserved rest =>
    refine .slot hoffer (placeOf_put (by exact hle) _) ?_
    rw [manager?_of_managers_eq (managers_put ..), manager?_setManager hM]
  | lent c rest =>
    dsimp only
    obtain hr | ⟨ha, v, hr, -⟩ := report_tells
      (t.setManager r.manager (some (M.withStock rest))) (lentEvent r.manager rest c)
    · rw [hr]
      refine .context hoffer (placeOf_put (by exact hle) _) ?_
      dsimp only [serve]
      rw [manager?_of_managers_eq (managers_put ..)]
      exact manager?_setManager hM _
    · rw [hr]
      refine .grief ha (placeOf_put ?_ _)
      have haside := report_aside hr
      have hplaces : ((v.wreck c).onManager r.manager Manager.poison).places = t.places := by
        unfold onManager
        split <;> exact haside.places
      rw [hplaces]
      exact hle

end State
end Lending
end HookPool
