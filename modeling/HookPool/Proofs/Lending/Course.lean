/-
# What callers come to while nobody comes to grief

As long as nobody comes to grief no manager is poisoned, and what most callers come to that have to
do with a manager no longer depends on the others: whoever calls a hook comes to the reply, whoever
gives a context back has done so, and whoever shuts a manager down tells of the contexts that were
in use.  Once the manager is closed, that goes for openers as well.

`Place.course` tells from its place what a caller comes to, and how many turns it still needs at the
most; `Intact.comes` says that no run on which nobody comes to grief goes otherwise.
-/
import HookPool.Proofs.Lending.Caller
import HookPool.Proofs.Lending.Ledger

namespace HookPool
namespace Lending

variable {σ : Type}

/-! ## Managers that are not poisoned, and those that are closed -/

section

variable {M M' : Manager σ} {n n' : Tally} {panics locked : Prop} {d : Nat}

/-- **A manager is poisoned only by a caller that comes to grief.** -/
theorem Entry.stays_sound (he : Entry panics locked d M n M' n') (hcalm : ¬panics)
    (hp : M.poisoned = false) : M'.poisoned = false := by
  cases he with
  | lentCrash _ _ _ _ hb | keptCrash _ _ _ hb => exact absurd hb hcalm
  | _ => exact hp

/-- **A manager that is closed stays closed.** -/
theorem Entry.stays_closed (he : Entry panics locked d M n M' n') (hc : M.closed = true) :
    M'.closed = true := by
  cases he with
  | shut => rfl
  | _ => exact hc

/-- A manager that is closed lends no more contexts. -/
theorem Entry.active_le (he : Entry panics locked d M n M' n') (hc : M.closed = true) :
    M'.stock.active ≤ M.stock.active := by
  have hopen : M.closed ≠ false := by rw [hc]; decide
  have hkeeps : M.keeps ≠ true := by simp [Manager.keeps, hc]
  have hvacate : M.stock.vacate.active ≤ M.stock.active := by
    rw [Stock.active_vacate]
    exact Nat.sub_le _ _
  cases he with
  | lent _ _ hc' | lentCrash _ _ hc' | reserved _ _ hc' => exact absurd hc' hopen
  | kept _ _ hk | keptCrash _ _ hk => exact absurd hk hkeeps
  | gaveUp => exact hvacate
  | turnedAway => exact hvacate
  | shut => exact Nat.le_of_eq M.stock.active_emptied
  | _ => exact Nat.le_refl _

end

/-- What a shutdown comes to that finds so many contexts in use. -/
def stopOutcome (active : Nat) : Outcome :=
  if 0 < active then .failed (.contextsOutstanding active) else .done

/-- What a call of a hook comes to. -/
def Invocation.outcome (invocation : Invocation σ) : Outcome :=
  Aim.verdict (.reply (invocation.reply?.getD (.ok .notImplemented))) (.ok ())

/-- What a caller comes to that has to do with a manager, and in how many turns of its own at the
most; of an opener that is known only if the manager is closed. -/
def Place.course (invoke : Invoke σ) (closed : Bool) (m : ManagerId) :
    Place σ → Option (Outcome × Nat)
  | .asking r =>
    if closed = true ∧ r.manager = m then some (.failed .managerClosed, 1) else none
  | .running k hook arguments c =>
    if k = m ∧ c.owner = some m then some ((invoke c.script hook arguments).outcome, 3) else none
  | .returning k aim c =>
    if k = m ∧ c.owner = some m then some (aim.verdict (.ok ()), 2) else none
  | .evicting k aim _ => if k = m then some (aim.verdict (.ok ()), 1) else none
  | .draining k active _ rest => if k = m then some (stopOutcome active, rest.length + 1) else none
  | .finished o => some (o, 0)
  | _ => none

namespace State

variable {invoke : Invoke σ} {s t : State σ} {mv : Move σ} {moves : List (Move σ)} {i j n : Nat}
  {p : Place σ} {u : Upshot σ} {o : Outcome} {m : ManagerId} {M M' : Manager σ} {closed : Bool}

/-- Nobody has come to grief, and the manager was made; it is not poisoned, and is closed if
`closed` says so, or it is gone. -/
structure Intact (invoke : Invoke σ) (closed : Bool) (s : State σ) (m : ManagerId) : Prop where
  reachable : Reachable invoke s
  calm : s.Calm
  made : ¬s.Fresh m
  sound : ∀ M, s.manager? m = some M → M.poisoned = false
  closed : ∀ M, s.manager? m = some M → closed = true → M.closed = true

/-- **Whatever happens leaves a manager intact**, if nobody comes to grief. -/
theorem Intact.move (h : Intact invoke closed s m) (hm : s.move invoke mv = some t)
    (hc : t.Calm) : Intact invoke closed t m := by
  have hr := h.reachable.registered
  have hentry : ∀ M', t.manager? m = some M' → ∃ M d n n', s.manager? m = some M ∧
      Entry (¬t.Calm) (s.locks m mv = true) d M n M' n' := by
    intro M' hM'
    cases hM : s.manager? m with
    | none => exact absurd (ledger_start hr hm hM hM' fun _ => false).1 h.made
    | some M => exact ⟨M, _, _, _, rfl, ledger_step hr hm hM hM' fun _ => false⟩
  refine ⟨h.reachable.move hm, hc, fun hf => h.made (hf.of_move hm), fun M' hM' => ?_,
    fun M' hM' hclosed => ?_⟩
  · obtain ⟨M, d, n, n', hM, he⟩ := hentry M' hM'
    exact he.stays_sound (fun hn => hn hc) (h.sound M hM)
  · obtain ⟨M, d, n, n', hM, he⟩ := hentry M' hM'
    exact he.stays_closed (h.closed M hM hclosed)

theorem Intact.run (h : Intact invoke closed s m) (hr : CalmRun invoke s moves t) :
    Intact invoke closed t m := by
  induction hr with
  | nil hc => exact h
  | cons hc hm hr ih => exact ih (h.move hm hr.calm_start)

/-- **No more contexts of a closed manager are lent than before.** -/
theorem Intact.active_le (h : Intact invoke true s m) (hr : CalmRun invoke s moves t)
    (hM : s.manager? m = some M) (hM' : t.manager? m = some M') :
    M'.stock.active ≤ M.stock.active := by
  induction hr generalizing M with
  | nil hc =>
    obtain rfl := Option.some.inj (hM.symm.trans hM')
    exact Nat.le_refl _
  | @cons s t u mv moves hc hm hr ih =>
    have ht := h.move hm hr.calm_start
    cases hM₁ : t.manager? m with
    | none =>
      have hgone := gone_of_run ht.reachable ht.made hM₁ hr.run
      rw [hM'] at hgone
      cases hgone
    | some M₁ =>
      have he := ledger_step h.reachable.registered hm hM hM₁ fun _ => false
      exact Nat.le_trans (ih ht hM₁ hM') (he.active_le (h.closed M hM rfl))

/-! ## Courses -/

theorem uses_of_course (h : p.course invoke closed m = some (o, n + 1)) : p.uses m = true := by
  cases p <;> simp_all [Place.course, Place.uses]

theorem not_finished_of_course (h : p.course invoke closed m = some (o, n + 1)) (o' : Outcome) :
    p ≠ .finished o' := by
  rintro rfl
  cases h

theorem finished_of_course (h : p.course invoke closed m = some (o, 0)) : p = .finished o := by
  cases p <;> simp_all [Place.course]

/-- A caller whose course is known can take its turn, as long as the manager is there. -/
theorem possible_of_course (hM : s.manager? m = some M) (hp : s.places[i]? = some p)
    (h : p.course invoke closed m = some (o, n + 1)) (chosen : Nat) :
    ∃ t, s.move invoke (.run i chosen) = some t := by
  cases p <;> simp_all [Place.course, State.move, step?, withManager]

/-- An opener whose course is known finds its manager closed. -/
theorem Opening.course {chosen : Nat} (h : Opening s chosen p u)
    (hcalm : u.place.isGrieving = false)
    (hsound : ∀ M, s.manager? m = some M → M.poisoned = false)
    (hclosed : ∀ M, s.manager? m = some M → closed = true → M.closed = true)
    (hp : p.course invoke closed m = some (o, n + 1)) :
    u.place.course invoke closed m = some (o, 0) := by
  -- only a closed manager leaves no choice to an opener
  have hshut : ∀ {r : Request} {M : Manager σ}, p = .asking r →
      s.manager? r.manager = some M → M.closed ≠ false := by
    rintro r M rfl hM
    obtain ⟨⟨hc, rfl⟩, -⟩ := Option.ite_none_right_eq_some.1 hp
    rw [hclosed M hM hc]
    decide
  cases h with
  | @barred r M hM hbad =>
    obtain ⟨⟨-, rfl⟩, -⟩ := Option.ite_none_right_eq_some.1 hp
    exact absurd ((hsound M hM).symm.trans hbad) (by decide)
  | shutOut =>
    obtain ⟨-, he⟩ := Option.ite_none_right_eq_some.1 hp
    cases he
    rfl
  | lent hM _ hc => exact absurd hc (hshut rfl hM)
  | reserved hM _ hc => exact absurd hc (hshut rfl hM)
  | fellAsleep hM _ hc => exact absurd hc (hshut rfl hM)
  | timedOut hM _ hc => exact absurd hc (hshut rfl hM)
  | lentCrash => cases hcalm
  | _ => cases hp

/-- Who gives a context back to its owner is let through. -/
theorem GivingBack.course {chosen : Nat} (h : GivingBack invoke s chosen p u)
    (hcalm : u.place.isGrieving = false)
    (hsound : ∀ M, s.manager? m = some M → M.poisoned = false)
    (hp : p.course invoke closed m = some (o, n + 1)) :
    ∃ n' ≤ n, u.place.course invoke closed m = some (o, n') := by
  cases h with
  | called hreply =>
    obtain ⟨hown, he⟩ := Option.ite_none_right_eq_some.1 hp
    cases he
    refine ⟨2, Nat.le_refl 2, ?_⟩
    rw [Place.course, if_pos hown, Invocation.outcome, hreply]
    rfl
  | undefined hreply =>
    obtain ⟨hown, he⟩ := Option.ite_none_right_eq_some.1 hp
    cases he
    refine ⟨2, Nat.le_refl 2, ?_⟩
    rw [Place.course, if_pos hown, Invocation.outcome, hreply]
    rfl
  | undefinedCrash => cases hcalm
  | refused hM ho =>
    obtain ⟨⟨rfl, howner⟩, -⟩ := Option.ite_none_right_eq_some.1 hp
    exact absurd howner ho
  | refusedEnd hM ho =>
    obtain ⟨⟨rfl, howner⟩, -⟩ := Option.ite_none_right_eq_some.1 hp
    exact absurd howner ho
  | barred hM ho hbad =>
    obtain ⟨⟨rfl, -⟩, -⟩ := Option.ite_none_right_eq_some.1 hp
    exact absurd ((hsound _ hM).symm.trans hbad) (by decide)
  | kept =>
    obtain ⟨-, he⟩ := Option.ite_none_right_eq_some.1 hp
    cases he
    exact ⟨0, Nat.zero_le 1, rfl⟩
  | keptCrash => cases hcalm
  | turnedAway =>
    obtain ⟨⟨rfl, -⟩, he⟩ := Option.ite_none_right_eq_some.1 hp
    cases he
    exact ⟨1, Nat.le_refl 1, if_pos rfl⟩
  | evicted hM ho =>
    obtain ⟨-, he⟩ := Option.ite_none_right_eq_some.1 hp
    cases he
    rcases ho with rfl | rfl
    · cases hcalm
    · exact ⟨0, Nat.le_refl 0, rfl⟩

/-- A shutdown that has begun drops one context after the other. -/
theorem Stopping.course (h : Stopping s p u) (hcalm : u.place.isGrieving = false)
    (hp : p.course invoke closed m = some (o, n + 1)) :
    u.place.course invoke closed m = some (o, n) := by
  cases h with
  | drained =>
    obtain ⟨rfl, he⟩ := Option.ite_none_right_eq_some.1 hp
    cases he
    exact if_pos rfl
  | drainCrash => cases hcalm
  | ended hM ho =>
    obtain ⟨-, he⟩ := Option.ite_none_right_eq_some.1 hp
    cases he
    rcases ho with rfl | rfl
    · cases hcalm
    · rfl
  | _ => cases hp

/-- **A turn of a caller keeps to its course**, unless it comes to grief. -/
theorem Turn.course (h : Turn invoke s i mv p u) (hcalm : u.place.isGrieving = false)
    (hsound : ∀ M, s.manager? m = some M → M.poisoned = false)
    (hclosed : ∀ M, s.manager? m = some M → closed = true → M.closed = true)
    (hp : p.course invoke closed m = some (o, n + 1)) :
    ∃ n' ≤ n, u.place.course invoke closed m = some (o, n') := by
  cases h with
  | beginning h => cases h <;> cases hp
  | opening h => exact ⟨0, Nat.zero_le n, h.course hcalm hsound hclosed hp⟩
  | givingBack h => exact h.course hcalm hsound hp
  | stopping h => exact ⟨n, Nat.le_refl n, h.course hcalm hp⟩
  | making h => cases h <;> cases hp
  | dealing h => cases h <;> cases hp
  | works => cases hp
  | rousing => cases hp

/-- **Every move leaves a caller on its course**, and further on it if it is its own. -/
theorem Intact.course_move (h : Intact invoke closed s m) (hm : s.move invoke mv = some t)
    (hc : t.Calm) (hp : (s.placeOf i).course invoke closed m = some (o, n + 1)) :
    ∃ n' ≤ if mv.isTurnOf i then n else n + 1,
      (t.placeOf i).course invoke closed m = some (o, n') := by
  obtain ⟨hturn, u, -, hu, -, hplace⟩ | ⟨hturn, hplace | ⟨r, hr, -⟩⟩ := move_cases hm i
  · rw [hturn, if_pos rfl, hplace]
    exact hu.course (hplace ▸ hc.placeOf i) h.sound h.closed hp
  · rw [hturn, hplace]
    exact ⟨n + 1, Nat.le_refl _, hp⟩
  · rw [hr] at hp
    cases hp

/-- **A caller comes to what its course says**, as long as nobody comes to grief. -/
theorem Intact.comes (h : Intact invoke closed s m) (hM : s.manager? m = some M)
    (hp : (s.placeOf i).course invoke closed m = some (o, n + 1)) :
    Comes invoke s i o (n + 1) := by
  refine Comes.of_rank (P := fun s n => i < s.places.length ∧
    (s.placeOf i).course invoke closed m = some (o, n) ∧
      (0 < n → Intact invoke closed s m ∧ ∃ M, s.manager? m = some M)) ?_ ?_ ?_
    ⟨(List.getElem?_eq_some_iff.1 (mem_places_of_placeOf rfl (not_finished_of_course hp))).1, hp,
      fun _ => ⟨h, M, hM⟩⟩
  · rintro s ⟨hi, hp, -⟩
    exact outcome?_of_placeOf (finished_of_course hp) hi
  · rintro s n ⟨hi, hp, hready⟩
    obtain ⟨-, M, hM⟩ := hready (Nat.succ_pos n)
    have hat := mem_places_of_placeOf rfl (not_finished_of_course hp)
    exact ⟨outcome?_eq_none rfl (not_finished_of_course hp), possible_of_course hM hat hp⟩
  · rintro s t mv n ⟨hi, hp, hready⟩ - hm hc
    obtain ⟨h, M, hM⟩ := hready (Nat.succ_pos n)
    have hat := mem_places_of_placeOf rfl (not_finished_of_course hp)
    obtain ⟨n', hle, hp'⟩ := h.course_move hm hc hp
    exact ⟨n', hle, Nat.lt_of_lt_of_le hi (length_places_le hm), hp', fun _ =>
      ⟨h.move hm hc, manager?_of_uses h.reachable.registered hm hM hat (uses_of_course hp)⟩⟩

end State
end Lending
end HookPool
