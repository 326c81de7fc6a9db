/-
# A caller that goes on alone

While all other callers have finished, the schedule lets the one caller go on until it can take no
more steps.  So what it comes to is known from the steps that it takes: a caller that makes a manager
comes to one with as many contexts as it starts with, or to none (`made_of_start`), and a caller that
shuts a manager down of which nothing is lent is done (`start_shutDown`).
-/
import HookPool.Proofs.Lending.Calls

namespace HookPool
namespace Lending

variable {σ : Type}

namespace State

variable {invoke : Invoke σ} {s t : State σ} {i j n chosen : Nat} {p : Place σ} {m : ManagerId}
  {M : Manager σ} {o : Outcome}

/-! ## The first caller that can take a step -/

theorem stepFirst?_eq_none {places : List (Place σ)} (h : ∀ p ∈ places, p.isReady = false) :
    s.stepFirst? invoke i places = none := by
  induction places generalizing i with
  | nil => rfl
  | cons p places ih =>
    rw [stepFirst?, if_neg (by rw [h p List.mem_cons_self]; exact Bool.false_ne_true)]
    exact ih fun q hq => h q (List.mem_cons_of_mem p hq)

/-- The only caller that is ready takes the step. -/
theorem stepFirst?_eq_some {places : List (Place σ)} (hp : places[j]? = some p)
    (hready : p.isReady = true)
    (hothers : ∀ k q, places[k]? = some q → k ≠ j → q.isReady = false)
    (ht : s.step? invoke (i + j) s.places.length = some t) :
    s.stepFirst? invoke i places = some t := by
  induction places generalizing i j with
  | nil => cases hp
  | cons q places ih =>
    cases j with
    | zero =>
      obtain rfl := Option.some.inj hp
      rw [stepFirst?, if_pos hready]
      simp only [Nat.add_zero] at ht
      rw [ht]
    | succ j =>
      have hq : q.isReady = false := hothers 0 q rfl (Nat.succ_ne_zero j).symm
      rw [stepFirst?, if_neg (by rw [hq]; exact Bool.false_ne_true)]
      refine ih hp (fun k q' hq' hk => hothers (k + 1) q' hq' fun he => hk (Nat.succ.inj he)) ?_
      rwa [Nat.add_right_comm]

/-! ## All others have finished -/

/-- All callers but one have finished, so that all else is left to it. -/
def LeftTo (s : State σ) (i : Nat) : Prop := ∀ j, j ≠ i → ∃ o, s.placeOf j = .finished o

/-- Nobody comes to a caller while it goes on alone. -/
theorem LeftTo.step (h : LeftTo s i) (ht : s.step? invoke i chosen = some t) : LeftTo t i := by
  intro j hj
  obtain ⟨o, ho⟩ := h j hj
  have hmove : s.move invoke (.run i chosen) = some t := ht
  obtain ⟨hturn, -⟩ | ⟨-, hplace | ⟨r, hr, -⟩⟩ := move_cases hmove j
  · exact absurd (of_decide_eq_true hturn).symm hj
  · exact ⟨o, hplace.trans ho⟩
  · rw [ho] at hr
    cases hr

theorem LeftTo.isReady_eq_false (h : LeftTo s i) (hp : s.places[j]? = some p) (hj : j ≠ i) :
    p.isReady = false := by
  obtain ⟨o, ho⟩ := h j hj
  rw [placeOf_eq hp] at ho
  rw [ho]
  rfl

/-- **A caller that goes on alone takes the next step.** -/
theorem LeftTo.settleWithin_succ (h : LeftTo s i) (hp : s.places[i]? = some p)
    (hready : p.isReady = true) (ht : s.step? invoke i s.places.length = some t) (n : Nat) :
    s.settleWithin invoke (n + 1) = t.settleWithin invoke n := by
  have hfirst : s.stepFirst? invoke 0 s.places = some t :=
    stepFirst?_eq_some hp hready (fun k q hq hk => h.isReady_eq_false hq hk)
      (by rwa [Nat.zero_add])
  rw [settleWithin, hfirst]

/-- When the last caller has finished nothing happens any more. -/
theorem LeftTo.settleWithin_finished (h : LeftTo s i) (ho : s.placeOf i = .finished o) (n : Nat) :
    s.settleWithin invoke n = s := by
  have hnone : s.stepFirst? invoke 0 s.places = none := by
    refine stepFirst?_eq_none fun p hp => ?_
    obtain ⟨j, hj⟩ := List.mem_iff_getElem?.1 hp
    by_cases hji : j = i
    · subst hji
      rw [placeOf_eq hj] at ho
      rw [ho]
      rfl
    · exact h.isReady_eq_false hj hji
  cases n with
  | zero => rfl
  | succ n => rw [settleWithin, hnone]

/-! ## Shutting down -/

/-- **A caller that has closed a manager of which nothing was lent is done** once it has destroyed
what was at hand. -/
theorem settleWithin_draining {first : Bool} {rest : List (Context σ)} (h : LeftTo s i)
    (ha : s.armed = none) (hM : s.manager? m = some M)
    (hp : s.places[i]? = some (.draining m 0 first rest)) (hn : rest.length < n) :
    (s.settleWithin invoke n).outcome? i = some .done := by
  induction rest generalizing s M n with
  | nil =>
    obtain ⟨n, rfl⟩ := Nat.exists_eq_succ_of_ne_zero (Nat.ne_of_gt hn)
    obtain ⟨t, ht, hunder⟩ : ∃ t, s.drain i m 0 first M [] = State.put t i (.finished .done) ∧
        Undisturbed s t := by
      have hs := Undisturbed.refl ha
      rw [drain]
      split
      · exact ⟨s, rfl, hs⟩
      · rw [report_unarmed ha]
        exact ⟨_, rfl, hs.record _⟩
    have hstep : s.step? invoke i s.places.length = some (t.put i (.finished .done)) := by
      simp [step?, hp, withManager, hM, ht]
    have hi : i < t.places.length := by
      rw [hunder.length]
      exact (List.getElem?_eq_some_iff.1 hp).1
    have hplace : (t.put i (.finished .done)).placeOf i = .finished .done :=
      placeOf_put (Nat.le_of_lt hi) _
    rw [h.settleWithin_succ hp rfl hstep, (h.step hstep).settleWithin_finished hplace]
    refine outcome?_of_placeOf hplace ?_
    rw [places_put, putAt, if_pos hi, List.length_set]
    exact hi
  | cons c rest ih =>
    obtain ⟨n, rfl⟩ := Nat.exists_eq_succ_of_ne_zero (Nat.ne_of_gt (Nat.zero_lt_of_lt hn))
    obtain ⟨t, ht, hunder, hthere⟩ : ∃ t, s.drain i m 0 first M (c :: rest) =
        State.put t i (.draining m 0 first rest) ∧ Undisturbed s t ∧
          t.manager? m = some (M.countDestroyed 1) := by
      rw [drain, discard_unarmed ha]
      refine ⟨_, rfl, (Undisturbed.refl ha).discarded m M c, ?_⟩
      rw [manager?_of_managers_eq (managers_discarded s m M c), manager?_setManager hM]
    have hstep : s.step? invoke i s.places.length = some (t.put i (.draining m 0 first rest)) := by
      simp [step?, hp, withManager, hM, ht]
    have hi : i ≤ t.places.length := by
      rw [hunder.length]
      exact Nat.le_of_lt (List.getElem?_eq_some_iff.1 hp).1
    have hplace : (t.put i (.draining m 0 first rest)).placeOf i = .draining m 0 first rest :=
      placeOf_put hi _
    rw [h.settleWithin_succ hp rfl hstep]
    refine ih (M := M.countDestroyed 1) (h.step hstep) ?_ ?_ ?_ (by simpa using hn)
    · rw [armed_put, hunder.unarmed]
    · rw [manager?_of_managers_eq (managers_put ..), hthere]
    · exact mem_places_of_placeOf hplace (by simp)

/-- Each manager has a part in the contexts of all of them. -/
theorem le_foldl_contextsAt (managers : List (Option (Manager σ))) (a : Nat) :
    a ≤ managers.foldl (· + contextsAt ·) a ∧
      ∀ x ∈ managers, a + contextsAt x ≤ managers.foldl (· + contextsAt ·) a := by
  induction managers generalizing a with
  | nil => exact ⟨Nat.le_refl a, nofun⟩
  | cons y managers ih =>
    obtain ⟨hle, hmem⟩ := ih (a + contextsAt y)
    refine ⟨Nat.le_trans (Nat.le_add_right _ _) hle, fun x hx => ?_⟩
    rcases List.mem_cons.1 hx with rfl | hx
    · exact hle
    · exact Nat.le_trans (by omega) (hmem x hx)

/-- The schedule takes enough steps to destroy the contexts of a manager. -/
theorem length_contexts_lt_effort (hM : s.manager? m = some M) :
    M.stock.contexts.length + 2 < s.effort := by
  have hmem : some M ∈ s.managers := by
    have hget := (numbered_of_manager? hM).getElem?
    rw [hM] at hget
    exact List.mem_of_getElem? hget
  have hsum := (le_foldl_contextsAt s.managers 0).2 (some M) hmem
  have hpos : 16 ≤ 16 * (s.places.length + 1) * (s.places.length + 1) := by
    calc 16 = 16 * 1 * 1 := rfl
      _ ≤ _ := Nat.mul_le_mul (Nat.mul_le_mul_left 16 (by omega)) (by omega)
  unfold effort
  simp only [contextsAt] at hsum ⊢
  omega

theorem LeftTo.put (h : LeftTo s i) (hi : i ≤ s.places.length) (p : Place σ) :
    LeftTo (s.put i p) i := by
  intro j hj
  obtain ⟨o, ho⟩ := h j hj
  refine ⟨o, ?_⟩
  unfold placeOf at ho ⊢
  rw [places_put, getElem?_putAt hi, if_neg hj, ho]

/-- **A caller that closes a manager of which nothing is lent is done** in the end. -/
theorem settleWithin_stopping (h : LeftTo s i) (ha : s.armed = none)
    (hp : s.places[i]? = some (.stopping m)) (hM : s.manager? m = some M)
    (hsound : M.poisoned = false) (hactive : M.stock.active = 0)
    (hn : M.stock.contexts.length + 1 < n) :
    (s.settleWithin invoke n).outcome? i = some .done := by
  obtain ⟨n, rfl⟩ := Nat.exists_eq_succ_of_ne_zero (Nat.ne_of_gt (Nat.zero_lt_of_lt hn))
  have hstep : s.step? invoke i s.places.length =
      some (((s.setManager m (some M.shut)).wakeAll m).put i
        (.draining m 0 (!M.closed) M.stock.contexts)) := by
    simp [step?, hp, withManager, hM, stop, hsound, hactive]
  have hi : i ≤ ((s.setManager m (some M.shut)).wakeAll m).places.length := by
    simp only [State.wakeAll, State.setManager, List.length_map]
    exact Nat.le_of_lt (List.getElem?_eq_some_iff.1 hp).1
  have hM₁ := manager?_of_managers_eq
    (managers_put ((s.setManager m (some M.shut)).wakeAll m) i
      (.draining m 0 (!M.closed) M.stock.contexts)) m
  rw [h.settleWithin_succ hp rfl hstep]
  refine settleWithin_draining (h.step hstep) ?_
    (hM₁.trans (manager?_setManager hM (some M.shut)))
    (mem_places_of_placeOf (placeOf_put hi _) (by simp)) (Nat.lt_of_succ_lt_succ hn)
  rw [armed_put]
  exact ha

/-- **The shutdown of a manager of which nothing is lent goes well**, where all callers have
finished. -/
theorem start_shutDown (h : LeftTo s i) (ha : s.armed = none)
    (hp : s.places[i]? = some (.finished o)) (hM : s.manager? m = some M)
    (hsound : M.poisoned = false) (hactive : M.stock.active = 0) :
    (s.start invoke i (.shutDown m)).outcome? i = some .done := by
  have hi := Nat.le_of_lt (List.getElem?_eq_some_iff.1 hp).1
  have hbegin : s.begin? i (.shutDown m) = some (s.put i (.stopping m)) := by
    simp [begin?, isFree, hp, withManager, hM]
  have hM₁ : (s.put i (.stopping m)).manager? m = some M :=
    (manager?_of_managers_eq (managers_put ..) m).trans hM
  have heffort := length_contexts_lt_effort hM₁
  unfold start settle
  rw [hbegin, Option.getD_some]
  refine settleWithin_stopping (h.put hi _) ?_ (mem_places_of_placeOf (placeOf_put hi _) (by simp))
    hM₁ hsound hactive (by omega)
  rw [armed_put, ha]

/-! ## Making a manager -/

/-- The manager has just been made: it has the contexts that it starts with. -/
structure New (s : State σ) (m : ManagerId) (plan : Plan) (factory : Nat) : Prop where
  registered : s.Registered
  tame : s.Tame
  present : factory < s.factories.length
  there : ∃ built, s.manager? m = some (firstManager plan factory built) ∧
    built.length = plan.startCount
  valid : ∀ config, plan = .pool config → config.Valid

/-- **One step in the making of a manager** builds a context, or ends it one way or the other. -/
theorem Tame.warm (h : s.Tame) (i : Nat) (m : ManagerId) (plan : Plan) {factory : Nat}
    (hf : factory < s.factories.length) (built : List (Context σ)) :
    ∃ t q, s.warm i m plan factory built = State.put t i q ∧ Undisturbed s t ∧
      ((∃ c, q = .warming m plan factory (built ++ [c])) ∨ (∃ e, q = .finished (.failed e)) ∨
        q = .finished (.made m) ∧ plan.startCount ≤ built.length ∧
          t.managers = s.managers.set (m.number - 1) (some (firstManager plan factory built))) := by
  unfold State.warm
  split
  · obtain ⟨t, b, hb, hunder, hcalm⟩ := h.build hf
    rw [hb]
    cases b with
    | panicked payload => exact absurd rfl (hcalm payload)
    | context c => exact ⟨t, _, rfl, hunder, .inl ⟨_, rfl⟩⟩
    | failed e =>
      dsimp only
      rw [destroyAll_unarmed hunder.unarmed]
      exact ⟨_, _, rfl, hunder.wreckAll built, .inr (.inl ⟨e, rfl⟩)⟩
  · rename_i hl
    dsimp only
    rw [report_unarmed h.unarmed]
    have hs := (Undisturbed.refl h.unarmed).record
      (madeEvent m plan (((s.factories[factory]?).map Factory.name).getD "") built)
    exact ⟨_, _, rfl, hs.setManager m _, .inr (.inr ⟨rfl, Nat.le_of_not_lt hl, rfl⟩)⟩

/-- A manager that is put where it was announced is there, with the contexts that it starts with. -/
theorem Registered.made (hr : s.Registered) {plan : Plan} {factory : Nat}
    {built : List (Context σ)} (hp : s.places[i]? = some (.warming m plan factory built))
    (hl : plan.startCount ≤ built.length)
    (hmanagers : t.managers =
      s.managers.set (m.number - 1) (some (firstManager plan factory built))) :
    t.manager? m = some (firstManager plan factory built) ∧ built.length = plan.startCount ∧
      ∀ config, plan = .pool config → config.Valid := by
  have hwarms : 0 < total (Place.warms m) s.places := by
    have hle := le_total (Place.warms m) (List.mem_of_getElem? hp)
    simp only [Place.warms, if_true] at hle
    exact hle
  have hthere := manager?_of_set (hr.unborn m hwarms).1 hmanagers m
  rw [if_pos rfl] at hthere
  have hmark := hr.marked _ (List.mem_of_getElem? hp)
  exact ⟨hthere, Nat.le_antisymm hmark.2.1 hl, hmark.2.2⟩

/-- **A caller that goes on alone to make a manager comes to a new one**, if to any. -/
theorem settleWithin_warming {k : ManagerId} {plan : Plan} {factory : Nat}
    {built : List (Context σ)} (h : LeftTo s i) (hr : s.Registered) (ht : s.Tame)
    (hf : factory < s.factories.length)
    (hp : s.places[i]? = some (.warming k plan factory built))
    (ho : (s.settleWithin invoke n).outcome? i = some (.made m)) :
    New (s.settleWithin invoke n) m plan factory ∧
      (s.settleWithin invoke n).places.length = s.places.length := by
  induction n generalizing s built with
  | zero =>
    rw [settleWithin, outcome?, hp] at ho
    cases ho
  | succ n ih =>
    have hstep : s.step? invoke i s.places.length = some (s.warm i k plan factory built) := by
      simp only [step?, hp]
    rw [h.settleWithin_succ hp rfl hstep] at ho ⊢
    have hleft := h.step hstep
    have hmove : s.move invoke (.run i s.places.length) = some (s.warm i k plan factory built) :=
      hstep
    have hreg := hr.move hmove
    obtain ⟨t, q, hq, hunder, hcases⟩ := ht.warm i k plan hf built
    rw [hq] at hleft hreg ho ⊢
    have hi : i < t.places.length := by
      rw [hunder.length]
      exact (List.getElem?_eq_some_iff.1 hp).1
    have hplace : (t.put i q).placeOf i = q := placeOf_put (Nat.le_of_lt hi) q
    have hlength : (t.put i q).places.length = s.places.length := by
      rw [places_put, putAt, if_pos hi, List.length_set, hunder.length]
    have hlt : i < (t.put i q).places.length := by
      rw [hlength, ← hunder.length]
      exact hi
    have htame := (hunder.tame ht).put i q
    have hf' : factory < (t.put i q).factories.length := by
      rw [factories_put, hunder.length_factories]
      exact hf
    obtain ⟨c, rfl⟩ | ⟨e, rfl⟩ | ⟨rfl, hl, hmanagers⟩ := hcases
    · rw [← hlength]
      exact ih hleft hreg htame hf' (mem_places_of_placeOf hplace (by simp)) ho
    · rw [hleft.settleWithin_finished hplace, outcome?_of_placeOf hplace hlt] at ho
      cases ho
    · rw [hleft.settleWithin_finished hplace] at ho ⊢
      rw [outcome?_of_placeOf hplace hlt] at ho
      obtain rfl : k = m := by simpa using ho
      obtain ⟨hthere, hlength', hvalid⟩ := hr.made hp hl
        ((managers_put t i (.finished (.made k))).trans hmanagers)
      exact ⟨⟨hreg, htame, hf', ⟨built, hthere, hlength'⟩, hvalid⟩, hlength⟩

/-- Whoever begins to make a manager builds its first contexts, or is told at once that there will be
none. -/
theorem establish_cases (s : State σ) (i factory : Nat) (plan : Plan) :
    ∃ t q, s.establish i factory plan = State.put t i q ∧ t.places = s.places ∧
      t.factories = s.factories ∧ t.armed = s.armed ∧
      ((∃ m, q = .warming m plan factory []) ∨ ∃ o, q = .finished o ∧ ∀ m, o ≠ .made m) := by
  unfold establish
  cases plan with
  | single => exact ⟨s.takeManagerId, _, rfl, rfl, rfl, rfl, .inl ⟨_, rfl⟩⟩
  | pool config =>
    dsimp only
    split
    · exact ⟨s, _, rfl, rfl, rfl, rfl, .inr ⟨_, rfl, by simp⟩⟩
    · split
      · exact ⟨s.takeManagerId, _, rfl, rfl, rfl, rfl, .inl ⟨_, rfl⟩⟩
      · exact ⟨s.takeManagerId, _, rfl, rfl, rfl, rfl, .inr ⟨_, rfl, by simp⟩⟩

/-- **A manager that was made where there was nothing before is new**, and nobody has come but the
caller that has made it. -/
theorem made_of_start {factories : List (Factory σ)} (htame : ∀ f ∈ factories, f.Tame)
    {factory : Nat} {plan : Plan}
    (ho : ((initial factories).start invoke 0 (.establish factory plan)).outcome? 0 =
      some (.made m)) :
    New ((initial factories).start invoke 0 (.establish factory plan)) m plan factory ∧
      ((initial factories).start invoke 0 (.establish factory plan)).places =
        [.finished (.made m)] := by
  have hbegin : (initial factories).begin? 0 (.establish factory plan) =
      if factory < factories.length then some ((initial factories).establish 0 factory plan)
      else none := rfl
  by_cases hf : factory < factories.length
  case neg =>
    -- nobody has begun anything
    unfold start settle at ho
    rw [hbegin, if_neg hf, Option.getD_none] at ho
    have hleft : LeftTo (initial factories) 0 := fun j _ => ⟨.done, rfl⟩
    rw [hleft.settleWithin_finished rfl] at ho
    cases ho
  rw [if_pos hf] at hbegin
  have hmove : (initial factories).move invoke (.begin 0 (.establish factory plan)) =
      some ((initial factories).establish 0 factory plan) := hbegin
  have hreg := (registered_initial factories).move hmove
  unfold start settle at ho ⊢
  rw [hbegin, Option.getD_some] at ho ⊢
  obtain ⟨t, q, hq, hplaces, hfactories, harmed, hcases⟩ :=
    establish_cases (initial factories) 0 factory plan
  rw [hq] at hreg ho ⊢
  have hempty : t.places = [] := hplaces
  have hall : (t.put 0 q).places = [q] := by rw [places_put, hempty]; rfl
  have hleft : LeftTo (t.put 0 q) 0 := by
    intro j hj
    obtain ⟨j, rfl⟩ := Nat.exists_eq_succ_of_ne_zero hj
    exact ⟨.done, by rw [placeOf, hall]; rfl⟩
  have ht : (t.put 0 q).Tame := by
    refine Tame.put ⟨harmed, ?_⟩ 0 q
    rw [hfactories]
    exact htame
  have hf' : factory < (t.put 0 q).factories.length := by
    rw [factories_put, hfactories]
    exact hf
  obtain ⟨k, rfl⟩ | ⟨o, rfl, hno⟩ := hcases
  · obtain ⟨hnew, hlength⟩ := settleWithin_warming hleft hreg ht hf' (by rw [hall]; rfl) ho
    refine ⟨hnew, ?_⟩
    rw [hall] at hlength
    obtain ⟨p, hp⟩ := List.length_eq_one_iff.1 hlength
    have hplace := placeOf_of_outcome? ho
    rw [placeOf, hp] at hplace
    have hplace : p = .finished (.made m) := hplace
    rw [hp, hplace]
  · rw [hleft.settleWithin_finished (placeOf_eq (by rw [hall]; rfl)), outcome?, hall] at ho
    exact absurd (Option.some.inj ho) (hno m)

/-! ## A manager that is new -/

/-- The state with more callers, who have not begun anything. -/
def withIdlers (s : State σ) (n : Nat) : State σ :=
  { s with places := s.places ++ List.replicate n (.finished .done) }

theorem total_withIdlers {f : Place σ → Nat} (h0 : f (.finished .done) = 0) (s : State σ) (n : Nat) :
    total f (s.withIdlers n).places = total f s.places := by
  have hzero : total f (List.replicate n (.finished .done)) = 0 := by
    refine total_eq_zero fun p hp => ?_
    rw [List.eq_of_mem_replicate hp, h0]
  rw [withIdlers, total_append, hzero, Nat.add_zero]

theorem Registered.withIdlers (h : s.Registered) (n : Nat) : (s.withIdlers n).Registered where
  stocked := h.stocked
  marked p hp := by
    rcases List.mem_append.1 hp with hp | hp
    · exact h.marked p hp
    · rw [List.eq_of_mem_replicate hp]
      trivial
  untaken k hk := by
    rw [total_withIdlers (by simp), total_withIdlers (by simp)]
    exact h.untaken k hk
  unborn k hk := by
    rw [total_withIdlers (by simp)] at hk ⊢
    rw [total_withIdlers (by simp)]
    exact h.unborn k hk

theorem New.withIdlers {plan : Plan} {factory : Nat} (h : New s m plan factory) (n : Nat) :
    New (s.withIdlers n) m plan factory :=
  ⟨h.registered.withIdlers n, ⟨h.tame.unarmed, h.tame.factories⟩, h.present, h.there, h.valid⟩

/-- **Through a new manager hooks can be called** as soon as all callers have finished. -/
theorem New.serves {plan : Plan} {factory : Nat} (h : New s m plan factory)
    (hall : ∀ p ∈ s.places, ∃ o, p = .finished o ∧ ∀ payload, o ≠ .panicked payload) :
    ∃ M, Serves s m M := by
  obtain ⟨built, hM, hl⟩ := h.there
  have hclaims : total (Place.claims m) s.places = 0 := by
    refine total_eq_zero fun p hp => ?_
    obtain ⟨o, rfl, -⟩ := hall p hp
    rfl
  have hnone := tally_eq_empty hclaims fun _ => false
  refine ⟨_, h.registered, h.tame, hM, ?_, ?_, fun p hp => ?_, fun _ => false, ?_, ?_, ?_⟩
  · cases plan <;> rfl
  · cases plan <;> exact h.present
  · obtain ⟨o, rfl, ho⟩ := hall p hp
    exact ho
  · rw [hnone]
    exact Bounded.start hl h.valid
  · rw [hnone]
    exact Heard.of_none rfl
  · rw [hnone]
    exact Balanced.start hl

end State
end Lending
end HookPool
