/-
# A manager of one context is a pool of one

The two kinds of managers are written apart: one has a slot and a flag, the other one a counter, a
list that it may let grow, and other events.  Yet a manager of one context and a pool that starts
with one context, lends one and keeps one cannot be told apart by what callers come to, by who
sleeps, or by what the managers tell of themselves, whoever takes a step in whichever order.

`Alike` lists what callers can tell of a state.  `pool_of_one_alike` compares two runs whose moves
differ only in that some managers of one are made as pools of one; the states that the runs lead to
are alike, and the first run is possible exactly if the second one is.  As this holds of all such
runs, it holds after each of their moves.

A pool of one never builds a second context: it could only do so while none is at hand and none is
lent, and until it is closed there is always one or the other (`Alone`).
-/
import HookPool.Lending.Schedule
import HookPool.Proofs.Lending.Mirror

namespace HookPool
namespace Lending

variable {σ : Type}

namespace State

variable {invoke : Invoke σ} {s t u : State σ} {m : ManagerId} {M : Manager σ} {a b : List (Move σ)}

namespace Mirrored

/-! ## Moves -/

/-- What needs a manager is possible in both or in neither. -/
theorem withManager (h : Mirrored s t) (m : ManagerId) {f g : Manager σ → State σ}
    (hfg : ∀ M, s.manager? m = some M → Mirrored (f M) (g M.pooled)) :
    Option.Rel Mirrored (s.withManager m f) (t.withManager m g) := by
  unfold State.withManager
  rw [h.manager?]
  cases hM : s.manager? m with
  | none => exact .none
  | some M => exact .some (hfg M hM)

/-- **Whoever takes a step comes to the same with pools of one**, wherever a run has led. -/
theorem step? (h : Mirrored s t) (hs : Reachable invoke s) (i chosen : Nat) :
    Option.Rel Mirrored (s.step? invoke i chosen) (t.step? invoke i chosen) := by
  have hbound : ∀ {m : ManagerId} {M : Manager σ}, s.manager? m = some M →
      Bounded M (s.tally (fun _ => false) m) := fun hM => hs.bounded hM _
  unfold State.step?
  rw [h.place?]
  cases hp : s.places[i]? with
  | none => exact .none
  | some p =>
    cases p with
    | asking r => exact h.withManager r.manager fun M hM => h.ask i r (hbound hM)
    | building r => exact h.withManager r.manager fun M _ => h.grow i r M
    | grown r c => exact h.withManager r.manager fun _ _ => h.countGrown i r c
    | abandoned r e => exact h.withManager r.manager fun _ _ => h.abandon i r e chosen
    | running m hook arguments c => exact .some (h.callHook i m hook arguments c)
    | returning m aim c =>
      refine h.withManager m fun M hM => h.giveBack i m aim c (hbound hM) (fun ho => ?_)
        (hs.sleepers_eq_nil hM) chosen
      have hheld := le_total (Place.holds m) (List.mem_of_getElem? hp)
      rwa [Place.holds, if_pos ho] at hheld
    | evicting m aim c => exact h.withManager m fun M _ => h.evict i m aim c M
    | stopping m => exact h.withManager m fun M _ => h.stop i m M
    | draining m active first rest =>
      exact h.withManager m fun M _ => h.drain i m active first M rest
    | warming m plan factory built =>
      have hmark : Place.Marked (.warming m plan factory built) :=
        hs.registered.marked _ (List.mem_of_getElem? hp)
      exact .some (h.warm i m plan factory hmark.2.1)
    | creating factory => exact .some (h.create i factory)
    | asleep r => exact .none
    | holding tenure c => exact .none
    | refused c => exact .none
    | finished o => exact .none

theorem isFree (h : Mirrored s t) (i : Nat) : t.isFree i = s.isFree i := by
  unfold State.isFree
  rw [h.place?, h.places, List.length_map]
  cases s.places[i]? with
  | none => rfl
  | some p => cases p <;> rfl

theorem inUse (h : Mirrored s t) (m : ManagerId) : t.inUse m = s.inUse m := by
  simp only [State.inUse, h.places, List.any_map, Function.comp_def, Place.uses_pooled]

theorem deadline? (h : Mirrored s t) (timeout : Option Duration) :
    t.deadline? timeout = s.deadline? timeout := by
  simp only [State.deadline?, h.clock]

theorem begin? (h : Mirrored s t) (i : Nat) (operation : Operation) :
    Option.Rel Mirrored (s.begin? i operation) (t.begin? i operation.pooled) := by
  unfold State.begin?
  rw [h.isFree]
  split
  case isFalse => exact .none
  cases operation with
  | acquire m purpose timeout =>
    dsimp only [Operation.pooled]
    rw [h.deadline?]
    exact h.withManager m fun _ _ => h.put i (.asking _)
  | shutDown m => exact h.withManager m fun _ _ => h.put i (.stopping m)
  | dropManager m =>
    dsimp only [Operation.pooled]
    rw [h.inUse]
    split
    · exact .none
    · exact h.withManager m fun M _ => h.dropManager i m M
  | establish factory plan =>
    dsimp only [Operation.pooled]
    rw [h.factories]
    split
    · exact .some (h.establish i factory plan)
    · exact .none
  | create factory =>
    dsimp only [Operation.pooled]
    rw [h.factories]
    split
    · exact .some (h.put i (.creating factory))
    · exact .none

theorem letGo (h : Mirrored s t) (i : Nat) (c : Context σ) :
    Mirrored (s.letGo i c) (t.letGo i c) := by
  unfold State.letGo State.destroy
  rw [destroyFor_unarmed h.unarmed, destroyFor_unarmed h.unarmed']
  exact (h.wreck c).finish i .done

theorem handle? (h : Mirrored s t) (i : Nat) (handling : Handling) :
    Option.Rel Mirrored (s.handle? i handling) (t.handle? i handling) := by
  unfold State.handle?
  rw [h.place?]
  cases hp : s.places[i]? with
  | none => exact .none
  | some p =>
    cases p with
    | holding tenure c =>
      cases tenure with
      | direct =>
        cases handling with
        | close m => exact h.withManager m fun _ _ => h.put i (.returning m .close c)
        | leave => exact .some (h.letGo i c)
        | unwind payload => exact .some ((h.wreck c).finish i _)
        | release => exact .none
        | recover => exact .none
      | leased m =>
        cases handling with
        | release => exact .some (h.put i (.returning m .close c))
        | leave => exact .some (h.put i (.returning m .leave c))
        | unwind payload => exact .some (h.put i (.returning m (.unwind payload) c))
        | close m => exact .none
        | recover => exact .none
    | refused c =>
      cases handling with
      | recover => exact .some (h.put i (.holding .direct c))
      | _ => exact .none
    | _ => exact .none

theorem use? (h : Mirrored s t) (i : Nat) (script : σ) :
    Option.Rel Mirrored (s.use? i script) (t.use? i script) := by
  unfold State.use?
  rw [h.place?]
  cases s.places[i]? with
  | none => exact .none
  | some p =>
    cases p with
    | holding tenure c => exact .some (h.put i (.holding tenure _))
    | _ => exact .none

theorem rouse? (h : Mirrored s t) (i : Nat) :
    Option.Rel Mirrored (s.rouse? i) (t.rouse? i) := by
  unfold State.rouse?
  rw [h.place?]
  cases s.places[i]? with
  | none => exact .none
  | some p =>
    cases p with
    | asleep r => exact .some (h.put i (.asking r))
    | _ => exact .none

/-- **A move is possible with pools of one as with managers of one**, and comes to the same. -/
theorem move (h : Mirrored s t) (hs : Reachable invoke s) {mv : Move σ}
    (harm : ∀ text, mv ≠ .arm text) :
    Option.Rel Mirrored (s.move invoke mv) (t.move invoke mv.pooled) := by
  cases mv with
  | begin i operation => exact h.begin? i operation
  | run i chosen => exact h.step? hs i chosen
  | handle i handling => exact h.handle? i handling
  | use i script => exact h.use? i script
  | rouse i => exact h.rouse? i
  | tick nanos => exact .some { h with clock := congrArg (· + nanos) h.clock }
  | arm text => exact absurd rfl (harm text)

/-- **A run is possible with pools of one as with managers of one**, and comes to the same. -/
theorem run (h : Mirrored s t) (hs : Reachable invoke s) (harm : ∀ text, .arm text ∉ a) :
    Option.Rel Mirrored (s.run invoke a) (t.run invoke (a.map Move.pooled)) := by
  induction a generalizing s t with
  | nil => exact .some h
  | cons mv a ih =>
    obtain ⟨hmv, harm⟩ : (∀ text, mv ≠ .arm text) ∧ ∀ text, .arm text ∉ a :=
      ⟨fun text he => harm text (he ▸ List.mem_cons_self ..),
        fun text he => harm text (List.mem_cons_of_mem _ he)⟩
    rw [List.map_cons, State.run, State.run]
    have hstep := h.move hs hmv
    cases hm : s.move invoke mv with
    | none =>
      rw [hm] at hstep
      cases ht : t.move invoke mv.pooled with
      | none => exact .none
      | some t' => rw [ht] at hstep; cases hstep
    | some s' =>
      rw [hm] at hstep
      cases ht : t.move invoke mv.pooled with
      | none => rw [ht] at hstep; cases hstep
      | some t' =>
        rw [ht] at hstep
        cases hstep with
        | some h' => exact ih h' (hs.move hm) harm

theorem initial (factories : List (Factory σ)) :
    Mirrored (State.initial factories) (State.initial factories) where
  managers := rfl
  places := rfl
  factories := rfl
  contextsMade := rfl
  clock := rfl
  printed := rfl
  ended := rfl
  unarmed := rfl
  unarmed' := rfl

end Mirrored

/-! ## What callers can tell -/

/-- Callers cannot tell the states apart. -/
structure Alike (s t : State σ) : Prop where
  /-- Every caller has come as far, with the same contexts in its hands. -/
  places : t.places.map Place.pooled = s.places.map Place.pooled
  outcome? : ∀ i, t.outcome? i = s.outcome? i
  sleepers : ∀ m, t.sleepers m = s.sleepers m
  stats : ∀ m, (t.manager? m).map Manager.stats = (s.manager? m).map Manager.stats
  closed : ∀ m, (t.manager? m).map Manager.closed = (s.manager? m).map Manager.closed
  /-- The factories were asked as often. -/
  factories : t.factories = s.factories
  contextsMade : t.contextsMade = s.contextsMade
  ended : t.ended = s.ended
  printed : t.printed = s.printed
  clock : t.clock = s.clock

namespace Mirrored

theorem outcome? (h : Mirrored s t) (i : Nat) : t.outcome? i = s.outcome? i := by
  unfold State.outcome?
  rw [h.place?]
  cases s.places[i]? with
  | none => rfl
  | some p => cases p <;> rfl

theorem alike (h : Mirrored s t) : Alike s t where
  places := by
    rw [h.places, List.map_map]
    refine List.map_congr_left fun p _ => ?_
    cases p with
    | warming m plan factory built => cases plan <;> rfl
    | _ => rfl
  outcome? := h.outcome?
  sleepers := h.sleepers
  stats m := by
    rw [h.manager?, Option.map_map]
    exact Option.map_congr fun M _ => M.stats_pooled
  closed m := by
    rw [h.manager?, Option.map_map]
    rfl
  factories := h.factories
  contextsMade := h.contextsMade
  ended := h.ended
  printed := h.printed
  clock := h.clock

end Mirrored

/-- States that are mirrored by the same one are alike. -/
theorem Alike.of_mirrored (hs : Mirrored s u) (ht : Mirrored t u) : Alike s t where
  places := ht.alike.places.symm.trans hs.alike.places
  outcome? i := (ht.outcome? i).symm.trans (hs.outcome? i)
  sleepers m := (ht.sleepers m).symm.trans (hs.sleepers m)
  stats m := (ht.alike.stats m).symm.trans (hs.alike.stats m)
  closed m := (ht.alike.closed m).symm.trans (hs.alike.closed m)
  factories := ht.factories.symm.trans hs.factories
  contextsMade := ht.contextsMade.symm.trans hs.contextsMade
  ended := ht.ended.symm.trans hs.ended
  printed := ht.printed.symm.trans hs.printed
  clock := ht.clock.symm.trans hs.clock

theorem Alike.rel_of_mirrored {s? t? u? : Option (State σ)} (hs : Option.Rel Mirrored s? u?)
    (ht : Option.Rel Mirrored t? u?) : Option.Rel Alike s? t? := by
  cases hs with
  | none =>
    cases ht with
    | none => exact .none
  | some hs =>
    cases ht with
    | some ht => exact .some (.of_mirrored hs ht)

end State

/-! ## Pools of one do not grow -/

/-- Nobody builds for the manager, and until it is closed its one context is at hand or lent. -/
structure Alone (M : Manager σ) (n : Tally) : Prop where
  building : n.building = 0
  created : M.created = 1
  one : M.closed = false → M.poisoned = false → M.stock.active + M.stock.contexts.length = 1

namespace Alone

variable {M M' : Manager σ} {n n' : Tally} {panics locked : Prop} {d : Nat}

theorem start {plan : Plan} {factory : Nat} {built : List (Context σ)}
    (hl : built.length = plan.startCount)
    (hone : (State.firstManager plan factory built).stock.config? = some poolOfOne) :
    Alone (State.firstManager plan factory built) {} := by
  cases plan with
  | single => cases hone
  | pool config =>
    obtain rfl := Option.some.inj hone
    refine ⟨rfl, rfl, fun _ _ => ?_⟩
    show 0 + built.length = 1
    rw [hl]
    rfl

/-- **Every move leaves a pool of one alone with its context.** -/
theorem step (he : Entry panics locked d M n M' n') (hb : Bounded M n)
    (hone : M.stock.config? = some poolOfOne) (h : Alone M n) : Alone M' n' := by
  obtain ⟨hbuild, hcreated, hctx⟩ := h
  have hlent := hb.lent
  cases he with
  | lent hl hp hc ho ha hn =>
    have hactive := Stock.active_of_offer_lent ho hb.room
    have hlength := congrArg List.length (Stock.contexts_of_offer_lent ho)
    rw [List.length_cons] at hlength
    have := hctx hc hp
    have hbuild' := hn.building
    dsimp only at hbuild'
    refine ⟨by omega, hcreated, fun _ _ => ?_⟩
    rw [Manager.stock_withStock]
    omega
  | reserved hl hp hc ho ha hn =>
    -- with nothing at hand the one context is lent, and there is no slot
    obtain ⟨hnil, hless, -, -⟩ := Stock.of_offer_reserved ho
    have := hctx hc hp
    have hmax : M.stock.maxActive = 1 :=
      Stock.maxActive_congr (t := .pool poolOfOne 0 []) hone
    rw [hnil, List.length_nil] at this
    omega
  | @kept _ _ _ c hl hp hk hn =>
    obtain ⟨-, -, -, hbuild', hheld, -⟩ := hn
    dsimp only at hbuild' hheld
    refine ⟨by omega, hcreated, fun hc hp => ?_⟩
    have := hctx hc hp
    rw [Manager.stock_withStock, Stock.active_put, Stock.active_vacate,
      hb.length_contexts_put (by omega)]
    omega
  | turnedAway hl hp hk hn =>
    obtain ⟨-, -, -, hbuild', hheld, -⟩ := hn
    dsimp only at hbuild' hheld
    refine ⟨by omega, hcreated, fun hc hp => ?_⟩
    -- an open pool of one has room for its context
    have := hctx hc hp
    have hkeeps : M.keeps = true := by
      rw [Manager.keeps, show M.closed = false from hc, Bool.not_false, Bool.true_and,
        Stock.keeps_iff hone]
      show _ < 1
      omega
    rw [hk] at hkeeps
    cases hkeeps
  | lentCrash _ _ _ _ _ _ hn | keptCrash _ _ _ _ hn =>
    have hbuild' := hn.building
    dsimp only at hbuild'
    refine ⟨by omega, hcreated, fun _ hp => ?_⟩
    cases hp
  | shut _ _ hn =>
    have hbuild' := hn.building
    dsimp only at hbuild'
    refine ⟨by omega, hcreated, fun hc => ?_⟩
    cases hc
  | still hn | came hn | went _ _ _ hn | fellAsleep _ _ _ _ _ hn | awoke hn | lost hn
  | wasted _ hn | discarded hn | drainCrash _ hn =>
    have hbuild' := hn.building
    dsimp only at hbuild'
    exact ⟨by omega, hcreated, hctx⟩
  | buildCrash _ hn | counted hn | countedCrash _ hn | gaveUp _ hn =>
    have hbuild' := hn.building
    dsimp only at hbuild'
    omega

end Alone

namespace State

variable {invoke : Invoke σ} {s : State σ} {m : ManagerId} {M : Manager σ}

/-- **A pool of one has no context but the one that it was made with**, wherever a run leads. -/
theorem Reachable.alone_of_one (hs : Reachable invoke s) (hM : s.manager? m = some M)
    (hone : M.stock.config? = some poolOfOne) (signalled : Nat → Bool) :
    Alone M (s.tally signalled m) := by
  obtain ⟨before, hw⟩ := hs.watched
  have h : Bounded M (s.tally before m) ∧
      (M.stock.config? = some poolOfOne → Alone M (s.tally before m)) :=
    ledger_induction
      (P := fun M n => Bounded M n ∧ (M.stock.config? = some poolOfOne → Alone M n))
      (fun _ _ _ hl hv => ⟨Bounded.start hl hv, Alone.start hl⟩)
      (fun he h => ⟨h.1.step he, fun hone =>
        have hone := he.config?_eq.symm.trans hone
        (h.2 hone).step he h.1 hone⟩) hw hM
  exact ⟨(h.2 hone).building, (h.2 hone).created, (h.2 hone).one⟩

/-! ## Runs -/

theorem not_arm_of_pooled_eq {a b : List (Move σ)} (hab : a.map Move.pooled = b.map Move.pooled)
    (harm : ∀ text, .arm text ∉ a) (text : String) : .arm text ∉ b := by
  intro hb
  have ha : (.arm text : Move σ) ∈ a.map Move.pooled := by
    rw [hab]
    exact List.mem_map_of_mem (f := Move.pooled) hb
  obtain ⟨mv, hmv, he⟩ := List.mem_map.1 ha
  cases mv <;> cases he
  exact harm text hmv

/-- **A manager of one context is a pool of one.**  Take two lists of moves that differ only in that
some managers of one context are made as pools that start with one, lend one and keep one, and that
never arm the sink.  Whatever the factories load, the first list is a run exactly if the second one
is; every caller then comes to the same, with the same contexts, the same openers sleep, and all
managers tell the same of themselves.  And a pool of one has not built a context but the first,
nor is one being built. -/
theorem pool_of_one_alike (factories : List (Factory σ)) {a b : List (Move σ)}
    (hab : a.map Move.pooled = b.map Move.pooled) (harm : ∀ text, .arm text ∉ a) :
    Option.Rel Alike ((initial factories).run invoke a) ((initial factories).run invoke b) ∧
      ∀ t m M, (initial factories).run invoke b = some t → t.manager? m = some M →
        M.stock.config? = some poolOfOne → M.created = 1 ∧ ∀ i, (t.placeOf i).builds m = 0 := by
  have hstart := reachable_initial invoke factories
  constructor
  · have ha := (Mirrored.initial factories).run hstart harm
    have hb := (Mirrored.initial factories).run hstart (not_arm_of_pooled_eq hab harm)
    rw [← hab] at hb
    exact Alike.rel_of_mirrored ha hb
  · intro t m M ht hM hone
    have h := (hstart.run ht).alone_of_one hM hone fun _ => false
    refine ⟨h.created, fun i => Nat.eq_zero_of_le_zero ?_⟩
    rw [← h.building]
    exact placeOf_le_total rfl i

/-- The hypotheses are satisfiable: the context is lent, one opener sleeps until its time is over
and another one until the manager is shut down, which comes too early; the context then comes back
late, and is destroyed. -/
theorem pool_of_one_alike_late_return :
    let moves : Plan → List (Move Unit) := fun plan =>
      [.begin 0 (.establish 0 plan), .run 0 0, .run 0 0,
        .begin 1 (.acquire ⟨1⟩ .hold none), .run 1 0, .begin 2 (.acquire ⟨1⟩ .hold none), .run 2 0,
        .begin 3 (.acquire ⟨1⟩ .lease (some ⟨1, 0⟩)), .run 3 0, .tick 1000000000, .rouse 3,
        .run 3 0, .begin 3 (.shutDown ⟨1⟩), .run 3 0, .run 3 0, .run 2 0, .handle 1 (.close ⟨1⟩),
        .run 1 0, .run 1 0]
    ∃ s t, (initial [plain]).run inert (moves .single) = some s ∧
      (initial [plain]).run inert (moves (.pool poolOfOne)) = some t ∧ Alike s t ∧
      s.outcome? 1 = some .done ∧ s.outcome? 2 = some (.failed .managerClosed) ∧
      s.outcome? 3 = some (.failed (.contextsOutstanding 1)) ∧
      (t.manager? ⟨1⟩).map Manager.stats = some ⟨0, 0, 1, 1, 1, 1⟩ := by
  intro moves
  obtain ⟨h, -⟩ := @pool_of_one_alike Unit inert [plain] (moves .single)
    (moves (.pool poolOfOne)) rfl (by simp [moves])
  obtain ⟨s, hs⟩ : ∃ s, (initial [plain]).run inert (moves .single) = some s := ⟨_, rfl⟩
  obtain ⟨t, ht⟩ : ∃ t, (initial [plain]).run inert (moves (.pool poolOfOne)) = some t := ⟨_, rfl⟩
  rw [hs, ht] at h
  cases h with
  | some h =>
    refine ⟨s, t, hs, ht, h, ?_⟩
    obtain rfl := Option.some.inj hs
    obtain rfl := Option.some.inj ht
    exact ⟨rfl, rfl, rfl, rfl⟩

end State
end Lending
end HookPool
