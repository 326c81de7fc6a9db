/-
# Moves are turns

Each function that takes a step is read once here, branch by branch, and each branch is one
constructor of the relations in `HookPool.Proofs.Lending.Turn`.

Main statement: `move_turn`.
-/
import HookPool.Proofs.Lending.Turn

namespace HookPool
namespace Lending
namespace State

variable {σ : Type} {s t : State σ} {m : ManagerId} {M : Manager σ} {i chosen : Nat}

/-! ## Fields after an operation -/

@[simp] theorem managers_put (s : State σ) (i : Nat) (p : Place σ) :
    (s.put i p).managers = s.managers := by
  unfold put; split <;> rfl

@[simp] theorem places_put (s : State σ) (i : Nat) (p : Place σ) :
    (s.put i p).places = putAt s.places i p := by
  unfold put putAt; split <;> rfl

@[simp] theorem clock_put (s : State σ) (i : Nat) (p : Place σ) : (s.put i p).clock = s.clock := by
  unfold put; split <;> rfl

@[simp] theorem contextsMade_put (s : State σ) (i : Nat) (p : Place σ) :
    (s.put i p).contextsMade = s.contextsMade := by
  unfold put; split <;> rfl

@[simp] theorem armed_put (s : State σ) (i : Nat) (p : Place σ) : (s.put i p).armed = s.armed := by
  unfold put; split <;> rfl

@[simp] theorem factories_put (s : State σ) (i : Nat) (p : Place σ) :
    (s.put i p).factories = s.factories := by
  unfold put; split <;> rfl

@[simp] theorem ended_put (s : State σ) (i : Nat) (p : Place σ) : (s.put i p).ended = s.ended := by
  unfold put; split <;> rfl

/-- **Waking one sleeper changes places only.** -/
theorem wakeOne_eq (s : State σ) (m : ManagerId) (chosen : Nat) :
    s.wakeOne m chosen = { s with places := (Wake.one m chosen).apply s.places } := by
  have hs : s.sleepers m = sleepersIn m s.places := rfl
  simp only [wakeOne, Wake.apply, hs]
  split <;> simp_all

theorem manager?_wakeOne (s : State σ) (k m : ManagerId) (chosen : Nat) :
    (s.wakeOne k chosen).manager? m = s.manager? m := by
  rw [wakeOne_eq]
  rfl

theorem wakeAll_eq (s : State σ) (m : ManagerId) :
    s.wakeAll m = { s with places := (Wake.all m).apply s.places } :=
  rfl

theorem manager?_setManager (h : s.manager? m = some M) (manager : Option (Manager σ)) :
    (s.setManager m manager).manager? m = manager := by
  obtain ⟨number⟩ := m
  cases number with
  | zero => simp [manager?] at h
  | succ n =>
    simp only [manager?, Option.join_eq_some_iff] at h
    have hn : n < s.managers.length := (List.getElem?_eq_some_iff.1 h).1
    simp [manager?, setManager, hn]

theorem onManager_eq (h : s.manager? m = some M) (f : Manager σ → Manager σ) :
    s.onManager m f = s.setManager m (some (f M)) := by
  unfold onManager; rw [h]

theorem manager?_of_managers_eq (h : t.managers = s.managers) (m : ManagerId) :
    t.manager? m = s.manager? m := by
  unfold manager?; rw [h]

/-- The state after a caller is put in its place follows, if the rest does. -/
theorem follows_put {p : Place σ} {shift : Shift σ} {wake : Wake} {made gone : List (Context σ)}
    (hm : t.managers = s.shifted shift) (hp : t.places = wake.apply s.places)
    (hc : t.clock = s.clock) (hn : t.contextsMade = s.contextsMade + made.length)
    (he : t.ended = (gone.map Context.id).reverse ++ s.ended) :
    Follows s (t.put i p) i ⟨p, shift, wake, made, gone⟩ :=
  ⟨by simpa using hm, by simp [hp], by simpa using hc, by simpa using hn, by simpa using he⟩

/-- What happens aside before a caller is put in its place. -/
theorem Aside.follows_put {p : Place σ} {made gone : List (Context σ)}
    (a : Aside s t made.length (gone.map Context.id).reverse) :
    Follows s (t.put i p) i { place := p, made := made, gone := gone } :=
  State.follows_put a.managers a.places a.clock a.contextsMade a.ended

/-- What happens aside after a manager was changed and before a caller is put in its place. -/
theorem Aside.follows_replace {manager : Option (Manager σ)} {p : Place σ}
    {gone : List (Context σ)}
    (a : Aside (s.setManager m manager) t 0 (gone.map Context.id).reverse) :
    Follows s (t.put i p) i { place := p, shift := .replace m manager, gone := gone } :=
  State.follows_put a.managers a.places a.clock a.contextsMade a.ended

/-- A manager is changed once more when what happens aside is over. -/
theorem Aside.follows_poison {manager : Manager σ} {gone : List (Context σ)} {p : Place σ}
    (h : s.manager? m = some M)
    (a : Aside (s.setManager m (some manager)) t 0 (gone.map Context.id).reverse) :
    Follows s ((t.onManager m .poison).put i p) i
      { place := p, shift := .replace m (some manager.poison), gone := gone } := by
  have ht : t.manager? m = some manager := by
    rw [manager?_of_managers_eq a.managers, manager?_setManager h]
  rw [onManager_eq ht]
  refine State.follows_put ?_ a.places a.clock a.contextsMade a.ended
  simp [shifted, setManager, a.managers]

/-! ## Opening -/

theorem lentEvent_ended? (m : ManagerId) (stock : Stock σ) (c : Context σ) :
    (lentEvent m stock c).ended? = none := by
  unfold lentEvent; split <;> rfl

theorem await_turn {r : Request} (hm : s.manager? r.manager = some M) (hp : M.poisoned = false)
    (hc : M.closed = false) (ho : M.stock.offer = .full) :
    ∃ u, Opening s chosen (.asking r) u ∧ Follows s (s.await i r) i u := by
  unfold await
  cases hd : r.deadline with
  | none => exact ⟨_, .fellAsleep hm hp hc ho (by simp [hd]), (Aside.refl s).follows_put⟩
  | some deadline =>
    dsimp only
    split
    · exact ⟨_, .timedOut hm hp hc ho hd ‹_›, (Aside.refl s).follows_put⟩
    · refine ⟨_, .fellAsleep hm hp hc ho ?_, (Aside.refl s).follows_put⟩
      intro d h
      obtain rfl := Option.some.inj (hd.symm.trans h)
      omega

theorem ask_turn {r : Request} (hm : s.manager? r.manager = some M) :
    ∃ u, Opening s chosen (.asking r) u ∧ Follows s (s.ask i r M) i u := by
  unfold ask
  split
  · exact ⟨_, .barred hm ‹_›, (Aside.refl s).follows_put⟩
  · rename_i hp
    rw [Bool.not_eq_true] at hp
    split
    · exact ⟨_, .shutOut hm hp ‹_›, (Aside.refl s).follows_put⟩
    · rename_i hc
      rw [Bool.not_eq_true] at hc
      split
      · rename_i c rest ho
        dsimp only
        split
        · rename_i s₁ heq
          have a := (report_aside heq).trans (wreck_aside s₁ c)
          rw [lentEvent_ended?] at a
          exact ⟨_, .lentCrash hm hp hc ho, a.follows_poison hm⟩
        · rename_i s₁ heq
          have a := report_aside heq
          rw [lentEvent_ended?] at a
          exact ⟨_, .lent hm hp hc ho, a.follows_replace⟩
      · exact ⟨_, .reserved hm hp hc ‹_›, (Aside.refl _).follows_replace⟩
      · exact await_turn hm hp hc ‹_›

theorem grow_turn {r : Request} (hm : s.manager? r.manager = some M) :
    ∃ u, Opening s chosen (.building r) u ∧ Follows s (s.grow i r M) i u := by
  unfold grow
  split
  · rename_i t c hb
    obtain ⟨hi, -, a⟩ := build_context hb
    exact ⟨_, .built hm hb hi, a.follows_put⟩
  · rename_i t payload hb
    obtain ⟨cs, hs, a⟩ := build_panicked hb
    exact ⟨_, .buildCrash hm hb hs, a.follows_put⟩
  · rename_i t e hb
    have a := build_failed hb
    split
    · rename_i s₁ heq
      exact ⟨_, .buildFailedCrash hm hb, (a.trans (report_aside heq)).follows_put⟩
    · rename_i s₁ heq
      exact ⟨_, .buildFailed hm hb, (a.trans (report_aside heq)).follows_put⟩

theorem countGrown_turn {r : Request} {c : Context σ} (hm : s.manager? r.manager = some M) :
    ∃ u, Opening s chosen (.grown r c) u ∧ Follows s (s.countGrown i r c) i u := by
  unfold countGrown
  rw [onManager_eq hm]
  split
  · rename_i s₁ heq
    exact ⟨_, .countedCrash hm, ((report_aside heq).trans (wreck_aside s₁ c)).follows_replace⟩
  · exact ⟨_, .counted hm, (report_aside ‹_›).follows_replace⟩

theorem abandon_turn {r : Request} {e : Error} (hm : s.manager? r.manager = some M) :
    ∃ u, Opening s chosen (.abandoned r e) u ∧ Follows s (s.abandon i r e chosen) i u := by
  unfold abandon
  dsimp only
  rw [onManager_eq hm, wakeOne_eq]
  exact ⟨_, .gaveUp hm, follows_put rfl rfl rfl rfl rfl⟩

/-! ## Calling and giving back -/

theorem callHook_turn (invoke : Invoke σ) (s : State σ) (i chosen : Nat) (m : ManagerId)
    (hook : String) (arguments : List HookArg) (c : Context σ) :
    ∃ u, GivingBack invoke s chosen (.running m hook arguments c) u ∧
      Follows s (callHook invoke s i m hook arguments c) i u := by
  have a := print_aside s (invoke c.script hook arguments).printed
  unfold callHook
  dsimp only
  split
  · exact ⟨_, .called ‹_›, a.follows_put⟩
  · split
    · exact ⟨_, .undefinedCrash ‹_›, (a.trans (report_aside ‹_›)).follows_put⟩
    · exact ⟨_, .undefined ‹_›, (a.trans (report_aside ‹_›)).follows_put⟩

/-- A return that is over finishes its caller, with the verdict unless the sink panics. -/
theorem conclude_finish (s : State σ) (i : Nat) (aim : Aim) (result : Except Error Unit) :
    ∃ t o, s.conclude i aim result = t.put i (.finished o) ∧ Aside s t 0 [] ∧
      (o = .panicked sinkPayload ∨ o = aim.verdict result) := by
  unfold conclude
  split
  · exact ⟨s, _, rfl, .refl s, .inr rfl⟩
  · exact ⟨s, _, rfl, .refl s, .inr rfl⟩
  · exact ⟨s, _, rfl, .refl s, .inr rfl⟩
  · exact ⟨s, _, rfl, .refl s, .inr rfl⟩
  · rename_i reply e
    cases reply <;> exact ⟨s, _, rfl, .refl s, .inr rfl⟩
  · exact ⟨s, _, rfl, .refl s, .inr rfl⟩
  · split
    · exact ⟨_, _, rfl, report_aside ‹_›, .inl rfl⟩
    · exact ⟨_, _, rfl, report_aside ‹_›, .inr rfl⟩
  · exact ⟨s, _, rfl, .refl s, .inr rfl⟩
  · exact ⟨_, _, rfl, record_aside s _, .inr rfl⟩

theorem conclude_ok (s : State σ) (i : Nat) (aim : Aim) :
    s.conclude i aim (.ok ()) = s.put i (.finished (aim.verdict (.ok ()))) := by
  unfold conclude Aim.verdict
  split <;> simp_all [finish]

/-- A lease that is disowned finishes its caller as one that is not, unless the sink panics. -/
theorem disown_finish (s : State σ) (i : Nat) (aim : Aim) (c : Context σ) :
    ∃ t o, s.disown i aim c = t.put i (.finished o) ∧ Aside s t 0 [c.id] ∧
      (o = .panicked sinkPayload ∨ o = aim.verdict (.ok ())) := by
  unfold disown
  split
  · rename_i s₁ heq
    exact ⟨_, _, rfl, (reportFor_aside heq).trans (wreck_aside s₁ c), .inl rfl⟩
  · rename_i s₁ heq
    have a := reportFor_aside heq
    split
    · exact ⟨_, _, rfl, a.trans (destroyFor_aside ‹_›), .inl rfl⟩
    · exact ⟨_, _, conclude_ok _ i aim, a.trans (destroyFor_aside ‹_›), .inr rfl⟩

theorem refuse_turn {invoke : Invoke σ} {aim : Aim} {c : Context σ} (hm : s.manager? m = some M)
    (ho : c.owner ≠ some m) :
    ∃ u, GivingBack invoke s chosen (.returning m aim c) u ∧
      Follows s (s.refuse i m aim c) i u := by
  unfold refuse
  split
  · rename_i s₁ heq
    exact ⟨_, .refusedEnd hm ho (.inl rfl),
      ((reportFor_aside heq).trans (wreck_aside s₁ c)).follows_put⟩
  · rename_i s₁ heq
    have a := reportFor_aside heq
    cases aim with
    | close => exact ⟨_, .refused hm ho (.inl rfl), a.follows_put⟩
    | reply reply => exact ⟨_, .refused hm ho (.inr ⟨_, rfl⟩), a.follows_put⟩
    | leave =>
      obtain ⟨t, o, he, a', ho'⟩ := disown_finish s₁ i .leave c
      dsimp only
      rw [he]
      exact ⟨_, .refusedEnd hm ho (ho'.imp_right fun e => ⟨.inl rfl, e⟩),
        (a.trans a').follows_put⟩
    | unwind payload =>
      obtain ⟨t, o, he, a', ho'⟩ := disown_finish s₁ i (.unwind payload) c
      dsimp only
      rw [he]
      exact ⟨_, .refusedEnd hm ho (ho'.imp_right fun e => ⟨.inr ⟨_, rfl⟩, e⟩),
        (a.trans a').follows_put⟩

theorem keptEvent_ended? (m : ManagerId) (stock : Stock σ) (c : Context σ) :
    (keptEvent m stock c).ended? = none := by
  unfold keptEvent; split <;> rfl

theorem takeBack_turn {invoke : Invoke σ} {aim : Aim} {c : Context σ}
    (hm : s.manager? m = some M) (ho : c.owner = some m) (hp : M.poisoned = false) :
    ∃ u, GivingBack invoke s chosen (.returning m aim c) u ∧
      Follows s (s.takeBack i m aim c M chosen) i u := by
  unfold takeBack
  dsimp only
  split
  · rename_i hk
    split
    · rename_i s₁ heq
      have a := (reportFor_aside heq).trans (wreck_aside s₁ c)
      rw [keptEvent_ended?] at a
      exact ⟨_, .keptCrash hm ho hp hk, a.follows_poison hm⟩
    · rename_i s₁ heq
      have a := reportFor_aside heq
      rw [keptEvent_ended?] at a
      rw [conclude_ok, wakeOne_eq]
      refine ⟨_, .kept hm ho hp hk, follows_put ?_ ?_ a.clock a.contextsMade a.ended⟩
      · simp [shifted, setManager, a.managers]
      · simp [setManager, a.places]
  · rename_i hk
    rw [Bool.not_eq_true] at hk
    have hpool : (M.stock.vacate).isPool = M.stock.isPool := by cases M.stock <;> rfl
    rw [hpool]
    refine ⟨_, .turnedAway hm ho hp hk, ?_⟩
    split
    · rw [wakeOne_eq]
      exact follows_put rfl rfl rfl rfl rfl
    · exact (Aside.refl _).follows_replace

theorem giveBack_turn {invoke : Invoke σ} {aim : Aim} {c : Context σ}
    (hm : s.manager? m = some M) :
    ∃ u, GivingBack invoke s chosen (.returning m aim c) u ∧
      Follows s (s.giveBack i m aim c M chosen) i u := by
  unfold giveBack
  split
  · exact refuse_turn hm ‹_›
  · rename_i ho
    rw [ne_eq, Decidable.not_not] at ho
    split
    · rename_i hp
      split
      · exact ⟨_, .barred hm ho hp (.inl rfl), (destroyFor_aside ‹_›).follows_put⟩
      · rename_i s₁ heq
        obtain ⟨t, o, he, a, ho'⟩ := conclude_finish s₁ i aim (.error .lockFailed)
        rw [he]
        exact ⟨_, .barred hm ho hp ho', ((destroyFor_aside heq).trans a).follows_put⟩
    · rename_i hp
      rw [Bool.not_eq_true] at hp
      exact takeBack_turn hm ho hp

/-- **A context that is discarded is counted and ends.** -/
theorem discard_aside {unwinding : Bool} {c : Context σ} {panics : Bool}
    (h : s.discard unwinding m M c = (t, panics)) :
    Aside (s.setManager m (some (M.countDestroyed 1))) t 0 [c.id] := by
  unfold discard at h
  dsimp only at h
  split at h
  · split at h
    · rename_i s₁ heq
      obtain ⟨rfl, -⟩ := Prod.mk.inj h
      exact (reportFor_aside heq).trans (wreck_aside s₁ c)
    · rename_i s₁ heq
      exact (reportFor_aside heq).trans (destroyFor_aside h)
  · exact destroyFor_aside h

theorem evict_turn {invoke : Invoke σ} {aim : Aim} {c : Context σ}
    (hm : s.manager? m = some M) :
    ∃ u, GivingBack invoke s chosen (.evicting m aim c) u ∧
      Follows s (s.evict i m aim c M) i u := by
  unfold evict
  split
  · exact ⟨_, .evicted hm (.inl rfl), (discard_aside ‹_›).follows_replace⟩
  · rw [conclude_ok]
    exact ⟨_, .evicted hm (.inr rfl), (discard_aside ‹_›).follows_replace⟩

/-! ## Shutting down and dropping -/

theorem stop_turn (hm : s.manager? m = some M) :
    ∃ u, Stopping s (.stopping m) u ∧ Follows s (s.stop i m M) i u := by
  unfold stop
  split
  · exact ⟨_, .barred hm ‹_›, (Aside.refl s).follows_put⟩
  · rename_i hp
    rw [Bool.not_eq_true] at hp
    rw [wakeAll_eq]
    exact ⟨_, .stopped hm hp, follows_put rfl rfl rfl rfl rfl⟩

theorem stopEvent?_ended? {stock : Stock σ} {active : Nat} {first : Bool} {e : Event}
    (h : stopEvent? m stock active first = some e) : e.ended? = none := by
  unfold stopEvent? at h
  split at h
  · split at h <;> cases h <;> rfl
  · split at h <;> cases h
    rfl

theorem drain_turn {active : Nat} {first : Bool} {contexts : List (Context σ)}
    (hm : s.manager? m = some M) :
    ∃ u, Stopping s (.draining m active first contexts) u ∧
      Follows s (s.drain i m active first M contexts) i u := by
  cases contexts with
  | cons c rest =>
    rw [drain]
    split
    · rename_i s₁ heq
      have a := (discard_aside heq).trans (wreckAll_aside s₁ rest)
      have hgone : (rest.map Context.id).reverse ++ [c.id] =
          ((c :: rest).map Context.id).reverse := by simp
      rw [hgone] at a
      exact ⟨_, .drainCrash hm, a.follows_replace⟩
    · exact ⟨_, .drained hm, (discard_aside ‹_›).follows_replace⟩
  | nil =>
    rw [drain]
    split
    · exact ⟨_, .ended hm (.inr rfl), (Aside.refl s).follows_put⟩
    · rename_i e he
      split
      · have a := report_aside ‹_›
        rw [stopEvent?_ended? he] at a
        exact ⟨_, .ended hm (.inl rfl), a.follows_put⟩
      · have a := report_aside ‹_›
        rw [stopEvent?_ended? he] at a
        exact ⟨_, .ended hm (.inr rfl), a.follows_put⟩

theorem dropEvent?_ended? {e : Event} (h : dropEvent? m M = some e) : e.ended? = none := by
  unfold dropEvent? at h
  dsimp only at h
  split at h
  · cases h
  · split at h <;> cases h <;> rfl

theorem dropManager_follows (s : State σ) (i : Nat) (m : ManagerId) (M : Manager σ) :
    ∃ o, (o = .panicked sinkPayload ∨ o = .done) ∧
      Follows s (s.dropManager i m M) i
        { place := .finished o, shift := .replace m none, gone := M.stock.contexts } := by
  unfold dropManager
  dsimp only
  generalize heq : ite (M.stock.isPool = true) _ _ = r
  obtain ⟨t, crashed⟩ := r
  -- whichever comes first, the event or the ends, they are one aside
  have a : Aside (s.setManager m none) t 0 (M.stock.contexts.map Context.id).reverse := by
    split at heq
    · split at heq
      · rename_i s₁ e hd hs
        have b := report_aside heq
        rw [dropEvent?_ended? hs] at b
        exact (destroyAll_aside hd).trans b
      · obtain ⟨rfl, rfl⟩ := Prod.mk.inj heq
        exact destroyAll_aside ‹_›
    · split at heq
      · exact destroyAll_aside heq
      · rename_i e he
        split at heq
        · rename_i s₁ hs
          have b := report_aside hs
          rw [dropEvent?_ended? he] at b
          obtain ⟨rfl, rfl⟩ := Prod.mk.inj heq
          simpa using b.trans (wreckAll_aside s₁ _)
        · rename_i s₁ hs
          have b := report_aside hs
          rw [dropEvent?_ended? he] at b
          simpa using b.trans (destroyAll_aside heq)
  split
  · exact ⟨_, .inl rfl, a.follows_replace⟩
  · exact ⟨_, .inr rfl, a.follows_replace⟩

/-! ## Making managers and contexts -/

theorem madeEvent_ended? (m : ManagerId) (plan : Plan) (name : String)
    (built : List (Context σ)) : (madeEvent m plan name built).ended? = none := by
  unfold madeEvent; split <;> rfl

theorem warm_turn (s : State σ) (i : Nat) (m : ManagerId) (plan : Plan) (factory : Nat)
    (built : List (Context σ)) :
    ∃ u, Making s (.warming m plan factory built) u ∧
      Follows s (s.warm i m plan factory built) i u := by
  unfold warm
  split
  · rename_i hl
    split
    · rename_i t c hb
      obtain ⟨hi, -, a⟩ := build_context hb
      exact ⟨_, .warmed hl hb hi, a.follows_put⟩
    · rename_i t payload hb
      obtain ⟨cs, hs, a⟩ := build_panicked hb
      refine ⟨_, .warmCrash hl hb hs, Aside.follows_put ?_⟩
      simpa using a.trans (wreckAll_aside t built)
    · rename_i t e hb
      have a := build_failed hb
      split
      · rename_i s₁ heq
        refine ⟨_, .warmFailed hl hb (.inl rfl), Aside.follows_put ?_⟩
        simpa using a.trans (destroyAll_aside heq)
      · rename_i s₁ heq
        refine ⟨_, .warmFailed hl hb (.inr rfl), Aside.follows_put ?_⟩
        simpa using a.trans (destroyAll_aside heq)
  · rename_i hl
    rw [Nat.not_lt] at hl
    dsimp only
    split
    · rename_i s₁ heq
      have a := report_aside heq
      rw [madeEvent_ended?] at a
      refine ⟨_, .madeCrash hl, Aside.follows_put ?_⟩
      simpa using a.trans (wreckAll_aside s₁ built)
    · rename_i s₁ heq
      have a := report_aside heq
      rw [madeEvent_ended?] at a
      refine ⟨_, .made hl, follows_put ?_ a.places a.clock a.contextsMade a.ended⟩
      simp [shifted, setManager, a.managers]

theorem create_turn (s : State σ) (i factory : Nat) :
    ∃ u, Making s (.creating factory) u ∧ Follows s (s.create i factory) i u := by
  unfold create
  split
  · rename_i t c hb
    obtain ⟨hi, ho, a⟩ := build_context hb
    exact ⟨_, .created hb hi ho, a.follows_put⟩
  · rename_i t payload hb
    obtain ⟨cs, hs, a⟩ := build_panicked hb
    exact ⟨_, .createCrash hb hs, a.follows_put⟩
  · exact ⟨_, .createFailed ‹_›, (build_failed ‹_›).follows_put⟩

/-! ## Moves -/

theorem placeOf_eq {p : Place σ} (h : s.places[i]? = some p) : s.placeOf i = p := by
  simp [placeOf, h]

theorem withManager_eq_some {f : Manager σ → State σ} (h : s.withManager m f = some t) :
    ∃ M, s.manager? m = some M ∧ f M = t :=
  Option.map_eq_some_iff.1 h

/-- A turn of a caller that leads from a state to another one. -/
def TurnsTo (invoke : Invoke σ) (s : State σ) (mv : Move σ) (t : State σ) : Prop :=
  ∃ i u, i ≤ s.places.length ∧ Turn invoke s i mv (s.placeOf i) u ∧ Follows s t i u

theorem TurnsTo.of_place {invoke : Invoke σ} {mv : Move σ} {p : Place σ} {u : Upshot σ}
    (hp : s.places[i]? = some p) (hu : Turn invoke s i mv p u) (hf : Follows s t i u) :
    TurnsTo invoke s mv t :=
  ⟨i, u, Nat.le_of_lt (List.getElem?_eq_some_iff.1 hp).1, (placeOf_eq hp).symm ▸ hu, hf⟩

/-- The move is no turn of a caller, and changes neither managers nor callers nor contexts. -/
structure Idle (s : State σ) (mv : Move σ) (t : State σ) : Prop where
  move : (∃ nanos, mv = .tick nanos) ∨ ∃ text, mv = .arm text
  managers : t.managers = s.managers
  places : t.places = s.places
  contextsMade : t.contextsMade = s.contextsMade
  ended : t.ended = s.ended

theorem step?_turn {invoke : Invoke σ} (h : s.step? invoke i chosen = some t) :
    TurnsTo invoke s (.run i chosen) t := by
  unfold step? at h
  split at h
  · cases h
  rename_i place hp
  suffices ∃ u, Turn invoke s i (.run i chosen) place u ∧ Follows s t i u by
    obtain ⟨u, hu, hf⟩ := this
    exact .of_place hp hu hf
  cases place with
  | asking r =>
    obtain ⟨M, hm, rfl⟩ := withManager_eq_some h
    exact (ask_turn hm).imp fun u hu => ⟨.opening hu.1, hu.2⟩
  | building r =>
    obtain ⟨M, hm, rfl⟩ := withManager_eq_some h
    exact (grow_turn hm).imp fun u hu => ⟨.opening hu.1, hu.2⟩
  | grown r c =>
    obtain ⟨M, hm, rfl⟩ := withManager_eq_some h
    exact (countGrown_turn hm).imp fun u hu => ⟨.opening hu.1, hu.2⟩
  | abandoned r e =>
    obtain ⟨M, hm, rfl⟩ := withManager_eq_some h
    exact (abandon_turn hm).imp fun u hu => ⟨.opening hu.1, hu.2⟩
  | running m hook arguments c =>
    obtain rfl := Option.some.inj h
    exact (callHook_turn invoke s i chosen m hook arguments c).imp fun u hu =>
      ⟨.givingBack hu.1, hu.2⟩
  | returning m aim c =>
    obtain ⟨M, hm, rfl⟩ := withManager_eq_some h
    exact (giveBack_turn hm).imp fun u hu => ⟨.givingBack hu.1, hu.2⟩
  | evicting m aim c =>
    obtain ⟨M, hm, rfl⟩ := withManager_eq_some h
    exact (evict_turn hm).imp fun u hu => ⟨.givingBack hu.1, hu.2⟩
  | stopping m =>
    obtain ⟨M, hm, rfl⟩ := withManager_eq_some h
    exact (stop_turn hm).imp fun u hu => ⟨.stopping hu.1, hu.2⟩
  | draining m active first rest =>
    obtain ⟨M, hm, rfl⟩ := withManager_eq_some h
    exact (drain_turn hm).imp fun u hu => ⟨.stopping hu.1, hu.2⟩
  | warming m plan factory built =>
    obtain rfl := Option.some.inj h
    exact (warm_turn s i m plan factory built).imp fun u hu => ⟨.making hu.1, hu.2⟩
  | creating factory =>
    obtain rfl := Option.some.inj h
    exact (create_turn s i factory).imp fun u hu => ⟨.making hu.1, hu.2⟩
  | asleep r => cases h
  | holding tenure c => cases h
  | refused c => cases h
  | finished o => cases h

theorem establish_turn (s : State σ) (i factory : Nat) (plan : Plan) (o : Outcome) :
    ∃ u, Beginning s (.establish factory plan) (.finished o) u ∧
      Follows s (s.establish i factory plan) i u := by
  unfold establish
  cases plan with
  | single =>
    refine ⟨_, .establishes ?_, follows_put rfl rfl rfl rfl rfl⟩
    intro config h
    cases h
  | pool config =>
    dsimp only
    split
    · exact ⟨_, .misconfigured ‹_›, (Aside.refl s).follows_put⟩
    · rename_i hf
      rw [PoolConfig.fault?_eq_none_iff] at hf
      split
      · refine ⟨_, .establishes ?_, follows_put rfl rfl rfl rfl rfl⟩
        intro config' h
        cases h
        exact hf
      · rename_i hn
        rw [Bool.not_eq_true] at hn
        exact ⟨_, .tooLarge hn, follows_put rfl rfl rfl rfl rfl⟩

theorem begin?_turn {invoke : Invoke σ} {operation : Operation}
    (h : s.begin? i operation = some t) : TurnsTo invoke s (.begin i operation) t := by
  unfold begin? at h
  split at h
  case isFalse => cases h
  rename_i hfree
  obtain ⟨o, hi, hp⟩ : ∃ o, i ≤ s.places.length ∧ s.placeOf i = .finished o := by
    unfold isFree at hfree
    split at hfree
    · rename_i hn
      exact ⟨.done, by simp at hfree; omega, by simp [placeOf, hn]⟩
    · rename_i o ho
      exact ⟨o, Nat.le_of_lt (List.getElem?_eq_some_iff.1 ho).1, placeOf_eq ho⟩
    · cases hfree
  suffices ∃ u, Beginning s operation (.finished o) u ∧ Follows s t i u by
    obtain ⟨u, hu, hf⟩ := this
    exact ⟨i, u, hi, hp.symm ▸ .beginning hu, hf⟩
  cases operation with
  | acquire m purpose timeout =>
    obtain ⟨M, hm, rfl⟩ := withManager_eq_some h
    exact ⟨_, .opens hm, (Aside.refl s).follows_put⟩
  | shutDown m =>
    obtain ⟨M, hm, rfl⟩ := withManager_eq_some h
    exact ⟨_, .stops hm, (Aside.refl s).follows_put⟩
  | dropManager m =>
    dsimp only at h
    split at h
    · cases h
    · rename_i hu
      rw [Bool.not_eq_true] at hu
      obtain ⟨M, hm, rfl⟩ := withManager_eq_some h
      obtain ⟨o', ho', hf⟩ := dropManager_follows s i m M
      exact ⟨_, .drops hm hu ho', hf⟩
  | establish factory plan =>
    dsimp only at h
    split at h
    · obtain rfl := Option.some.inj h
      exact establish_turn s i factory plan o
    · cases h
  | create factory =>
    dsimp only at h
    split at h
    · obtain rfl := Option.some.inj h
      exact ⟨_, .creates, (Aside.refl s).follows_put⟩
    · cases h

theorem handle?_turn {invoke : Invoke σ} {handling : Handling}
    (h : s.handle? i handling = some t) : TurnsTo invoke s (.handle i handling) t := by
  suffices ∃ p u, s.places[i]? = some p ∧ Dealing s handling p u ∧ Follows s t i u by
    obtain ⟨p, u, hp, hu, hf⟩ := this
    exact .of_place hp (.dealing hu) hf
  unfold handle? at h
  split at h
  · rename_i c m hp
    obtain ⟨M, hm, rfl⟩ := withManager_eq_some h
    exact ⟨_, _, hp, .closes hm, (Aside.refl s).follows_put⟩
  · rename_i c hp
    obtain rfl := Option.some.inj h
    unfold letGo
    split
    · exact ⟨_, _, hp, .letsGo (.inl rfl), (destroyFor_aside ‹_›).follows_put⟩
    · exact ⟨_, _, hp, .letsGo (.inr rfl), (destroyFor_aside ‹_›).follows_put⟩
  · rename_i c payload hp
    obtain rfl := Option.some.inj h
    exact ⟨_, _, hp, .unwinds, (wreck_aside s c).follows_put⟩
  · rename_i m c hp
    obtain rfl := Option.some.inj h
    exact ⟨_, _, hp, .releases, (Aside.refl s).follows_put⟩
  · rename_i m c hp
    obtain rfl := Option.some.inj h
    exact ⟨_, _, hp, .leaves, (Aside.refl s).follows_put⟩
  · rename_i m c payload hp
    obtain rfl := Option.some.inj h
    exact ⟨_, _, hp, .unwindsLease, (Aside.refl s).follows_put⟩
  · rename_i c hp
    obtain rfl := Option.some.inj h
    exact ⟨_, _, hp, .recovers, (Aside.refl s).follows_put⟩
  · cases h

/-- **A move that is possible is a turn of one caller, or changes nothing that callers share but
the clock and the sink.** -/
theorem move_turn {invoke : Invoke σ} {mv : Move σ} (h : s.move invoke mv = some t) :
    TurnsTo invoke s mv t ∨ Idle s mv t := by
  cases mv with
  | begin caller operation => exact .inl (begin?_turn h)
  | run caller chosen => exact .inl (step?_turn h)
  | handle caller handling => exact .inl (handle?_turn h)
  | use caller script =>
    simp only [move, use?] at h
    split at h
    · rename_i tenure c hp
      obtain rfl := Option.some.inj h
      exact .inl (.of_place hp .works (Aside.refl s).follows_put)
    · cases h
  | rouse caller =>
    simp only [move, rouse?] at h
    split at h
    · rename_i r hp
      obtain rfl := Option.some.inj h
      exact .inl (.of_place hp .rousing (Aside.refl s).follows_put)
    · cases h
  | tick nanos =>
    obtain rfl := Option.some.inj h
    exact .inr ⟨.inl ⟨_, rfl⟩, rfl, rfl, rfl, rfl⟩
  | arm text =>
    obtain rfl := Option.some.inj h
    exact .inr ⟨.inr ⟨_, rfl⟩, rfl, rfl, rfl, rfl⟩

end State
end Lending
end HookPool
