/-
# Calls of a pool that are made in turn

A caller that goes on alone comes to an end in a few turns, whoever it wakes on its way.  What it
comes to is told from its last turn back (`GoesThrough.done`, `GoesThrough.turn`), one lemma for
each place that a call can be in, until a call that has just begun is known to take a context of its
pool, or to have one built, and to give it back (`Tended.call`).  So calls that are made one after
the other are `Rounds` of the books of the pool (`InTurn.rounds`).

Main statement: what a new pool tells of itself after such calls, and which context serves each of
them (`called_in_turn`).
-/
import HookPool.Proofs.Lending.Factories
import HookPool.Proofs.Lending.Founding
import HookPool.Proofs.Lending.Rota

namespace HookPool
namespace Lending

variable {σ : Type}

/-- The move is a step that the caller takes. -/
def Move.IsStepOf (i : Nat) (mv : Move σ) : Prop := ∃ chosen, mv = .run i chosen

/-- The call that begins when the caller comes to a place, if it comes to the outcome in the end. -/
def Place.calls (i : Nat) (o : Outcome) : Place σ → List Service
  | .running m hook arguments c => [⟨i, m, c.id, hook, arguments, some o⟩]
  | _ => []

namespace State

variable {invoke : Invoke σ} {s t u : State σ} {mv : Move σ} {moves turns : List (Move σ)}
  {i chosen : Nat} {p : Place σ} {m : ManagerId} {M : Manager σ} {o : Outcome}
  {Q : Outcome → List Service → State σ → Prop}

/-! ## A caller that goes on alone -/

/-- **Going on alone, the caller comes to an outcome**, whoever is woken on the way, and `Q` holds
of it, of the calls that begin meanwhile and of the state in the end. -/
structure GoesThrough (invoke : Invoke σ) (i : Nat) (Q : Outcome → List Service → State σ → Prop)
    (s : State σ) : Prop where
  possible : ∃ turns t, (∀ mv ∈ turns, mv.IsStepOf i) ∧ s.run invoke turns = some t ∧
    t.outcome? i ≠ none
  always : ∀ turns t, (∀ mv ∈ turns, mv.IsStepOf i) → s.run invoke turns = some t →
    t.outcome? i ≠ none → ∃ o calls, Q o calls t ∧
      ∀ later, s.outcomeOn invoke i (turns ++ later) = some o ∧
        s.callsOn invoke (turns ++ later) = calls ++ t.callsOn invoke later

namespace GoesThrough

/-- A caller that has finished takes no step. -/
theorem done (hp : s.places[i]? = some (.finished o)) (hq : Q o [] s) :
    GoesThrough invoke i Q s where
  possible := ⟨[], s, nofun, rfl, by simp [outcome?, hp]⟩
  always turns t hturns hrun ht := by
    cases turns with
    | nil =>
      obtain rfl := Option.some.inj hrun
      exact ⟨o, [], hq, fun later => ⟨outcomeOn_of_outcome? (by simp [outcome?, hp]) later, rfl⟩⟩
    | cons mv turns =>
      obtain ⟨chosen, rfl⟩ := hturns mv List.mem_cons_self
      obtain ⟨u, hm, -⟩ := run_cons hrun
      simp [State.move, step?, hp] at hm

/-- **What a caller comes to is what it comes to after its next turn.** -/
theorem turn (hs : s.outcome? i = none)
    (h : ∀ chosen, ∃ t, s.step? invoke i chosen = some t ∧ t.placeOf i = p ∧
      GoesThrough invoke i (fun o calls => Q o (p.calls i o ++ calls)) t) :
    GoesThrough invoke i Q s where
  possible := by
    obtain ⟨t, ht, -, ⟨turns, u, hturns, hrun, hu⟩, -⟩ := h 0
    refine ⟨.run i 0 :: turns, u, List.forall_mem_cons.2 ⟨⟨0, rfl⟩, hturns⟩, ?_, hu⟩
    rw [State.run, State.move, ht, Option.bind_some, hrun]
  always turns u hturns hrun hu := by
    cases turns with
    | nil =>
      obtain rfl := Option.some.inj hrun
      exact absurd hs hu
    | cons mv turns =>
      obtain ⟨⟨chosen, rfl⟩, hlater⟩ := List.forall_mem_cons.1 hturns
      obtain ⟨t, ht, hp, hends⟩ := h chosen
      obtain ⟨t', hm, hrun⟩ := run_cons hrun
      obtain rfl := Option.some.inj (hm.symm.trans ht)
      obtain ⟨o, calls, hq, htell⟩ := hends.always turns u hlater hrun hu
      refine ⟨o, p.calls i o ++ calls, hq, fun later => ?_⟩
      obtain ⟨hresult, hcalls⟩ := htell later
      have hbegun : (t'.begun? invoke (turns ++ later) (.run i chosen)).toList = p.calls i o := by
        simp only [begun?, hp, hresult]
        cases p <;> rfl
      rw [List.cons_append, outcomeOn_cons hs hm, callsOn_cons hm, hbegun, hcalls,
        List.append_assoc]
      exact ⟨hresult, rfl⟩

end GoesThrough

end State

/-! ## A pool that is called -/

/-- The pool that has the books, open and sound. -/
def Books.pool (B : Books σ) (config : PoolConfig) (factory : Nat) : Manager σ where
  stock := .pool config B.active B.idle
  factory := factory
  created := B.created
  destroyed := B.destroyed

/-- The call that a caller makes with a context, once it is through. -/
def Context.service (invoke : Invoke σ) (c : Context σ) (i : Nat) (m : ManagerId) (hook : String)
    (arguments : List HookArg) : Service :=
  ⟨i, m, c.id, hook, arguments, some (invoke c.script hook arguments).outcome⟩

namespace State

variable {invoke : Invoke σ} {s t u : State σ} {i chosen factory : Nat} {p q : Place σ}
  {m : ManagerId} {o : Outcome} {Q : Outcome → List Service → State σ → Prop}
  {config : PoolConfig} {B B' : Books σ} {c : Context σ} {hook : String}
  {arguments : List HookArg} {reply : Except Error HookReply}

/-- **The pool has the books**; its factory loads a script whenever it is asked, and no sink is
armed. -/
structure Tended (invoke : Invoke σ) (m : ManagerId) (config : PoolConfig) (factory : Nat)
    (B : Books σ) (s : State σ) : Prop where
  reachable : Reachable invoke s
  there : s.manager? m = some (B.pool config factory)
  unarmed : s.armed = none
  loads : s.Loads factory

/-- **By its next step the caller comes to the place, and the pool to the books.** -/
def Advances (invoke : Invoke σ) (m : ManagerId) (config : PoolConfig) (factory i : Nat)
    (s : State σ) (p : Place σ) (B : Books σ) : Prop :=
  ∀ chosen, ∃ t, s.step? invoke i chosen = some (t.put i p) ∧ Undisturbed s t ∧
    t.manager? m = some (B.pool config factory)

namespace Tended

/-- One turn of a caller of the pool. -/
theorem turn (h : Tended invoke m config factory B s) (hp : s.places[i]? = some p)
    (hno : ∀ o, p ≠ .finished o) (hadv : Advances invoke m config factory i s q B')
    (hrest : ∀ t, Tended invoke m config factory B' t → t.places[i]? = some q →
      GoesThrough invoke i (fun o calls => Q o (q.calls i o ++ calls)) t) :
    GoesThrough invoke i Q s := by
  refine GoesThrough.turn (p := q) (outcome?_eq_none (placeOf_eq hp) hno) fun chosen => ?_
  obtain ⟨t, hstep, hunder, hM⟩ := hadv chosen
  have hi : i < t.places.length := by
    rw [hunder.length]
    exact (List.getElem?_eq_some_iff.1 hp).1
  have hplace := placeOf_put (Nat.le_of_lt hi) q
  have hmove : s.move invoke (.run i chosen) = some (t.put i q) := hstep
  refine ⟨_, hstep, hplace, hrest _ ⟨h.reachable.move hmove, ?_, ?_, ?_⟩ ?_⟩
  · rw [manager?_of_managers_eq (managers_put ..), hM]
  · rw [armed_put, hunder.unarmed]
  · exact h.loads.of_products ((products_put t i q).trans hunder.products)
  · refine place?_of_placeOf hplace ?_
    rw [places_put, putAt, if_pos hi, List.length_set]
    exact hi

/-! ### Giving a context back -/

/-- A caller that is about to destroy a context counts it, and is through. -/
theorem evicting (h : Tended invoke m config factory B s)
    (hp : s.places[i]? = some (.evicting m (.reply reply) c))
    (hq : ∀ t, Tended invoke m config factory { B with destroyed := B.destroyed + 1 } t →
      Q (Aim.verdict (.reply reply) (.ok ())) [] t) : GoesThrough invoke i Q s := by
  have hs := Undisturbed.refl h.unarmed
  have hadv : Advances invoke m config factory i s
      (.finished (Aim.verdict (.reply reply) (.ok ())))
      { B with destroyed := B.destroyed + 1 } := by
    refine fun chosen => ⟨_, ?_, hs.discarded m (B.pool config factory) c, ?_⟩
    · simp only [step?, hp, withManager, h.there, Option.map_some, evict]
      rw [discard_unarmed h.unarmed]
      exact congrArg some (conclude_ok _ i _)
    · rw [manager?_of_managers_eq (managers_discarded ..), manager?_setManager h.there]
      rfl
  exact h.turn hp (by simp) hadv fun t ht hp => .done hp (hq t ht)

/-- **A context that comes back is kept behind the others, or destroyed.** -/
theorem returning (h : Tended invoke m config factory (B.withSlots 1) s) (ho : c.owner = some m)
    (hp : s.places[i]? = some (.returning m (.reply reply) c))
    (hq : ∀ t, Tended invoke m config factory (B.back config c) t →
      Q (Aim.verdict (.reply reply) (.ok ())) [] t) : GoesThrough invoke i Q s := by
  have hs := Undisturbed.refl h.unarmed
  have hstep : ∀ chosen, s.step? invoke i chosen = some
      (s.takeBack i m (.reply reply) c ((B.withSlots 1).pool config factory) chosen) := by
    intro chosen
    simp only [step?, hp, withManager, h.there, Option.map_some, giveBack]
    rw [if_neg (not_not_intro ho), if_neg (by exact Bool.false_ne_true)]
  have hvacant := manager?_setManager h.there
    (some (((B.withSlots 1).pool config factory).withStock (.pool config B.active B.idle)))
  unfold Books.back at hq
  by_cases hroom : B.idle.length < config.maxIdle
  · rw [if_pos hroom] at hq
    have hadv : Advances invoke m config factory i s
        (.finished (Aim.verdict (.reply reply) (.ok ()))) { B with idle := B.idle ++ [c] } := by
      intro chosen
      rw [hstep, takeBack_kept h.unarmed (by exact decide_eq_true hroom)]
      refine ⟨_, rfl, (((hs.setManager m _).record _).setManager m _).wakeOne m chosen, ?_⟩
      rw [manager?_wakeOne]
      exact manager?_setManager ((manager?_of_managers_eq rfl m).trans hvacant) _
    exact h.turn hp (by simp) hadv fun t ht hp => .done hp (hq t ht)
  · rw [if_neg hroom] at hq
    have hadv : Advances invoke m config factory i s (.evicting m (.reply reply) c) B := by
      intro chosen
      rw [hstep, takeBack_spurned (by exact decide_eq_false hroom) rfl]
      refine ⟨_, rfl, (hs.setManager m _).wakeOne m chosen, ?_⟩
      rw [manager?_wakeOne]
      exact hvacant
    exact h.turn hp (by simp) hadv fun t ht hp => ht.evicting hp hq

/-! ### Opening and calling -/

/-- **Whoever has a context calls its hook and gives it back.** -/
theorem running (h : Tended invoke m config factory (B.withSlots 1) s) (ho : c.owner = some m)
    (hp : s.places[i]? = some (.running m hook arguments c))
    (hq : ∀ t, Tended invoke m config factory (B.back config (c.after invoke hook arguments)) t →
      Q (invoke c.script hook arguments).outcome [] t) : GoesThrough invoke i Q s := by
  have hs := (Undisturbed.refl h.unarmed).print (invoke c.script hook arguments).printed
  have hadv : Advances invoke m config factory i s
      (.returning m
        (.reply ((invoke c.script hook arguments).reply?.getD (.ok .notImplemented)))
        (c.after invoke hook arguments)) (B.withSlots 1) := by
    intro chosen
    simp only [step?, hp, callHook]
    cases (invoke c.script hook arguments).reply? with
    | some reply => exact ⟨_, rfl, hs, h.there⟩
    | none =>
      dsimp only
      rw [report_unarmed hs.unarmed]
      exact ⟨_, rfl, hs.record _, h.there⟩
  exact h.turn hp (by simp) hadv fun t ht hp =>
    ht.returning (show (c.after invoke hook arguments).owner = some m from ho) hp hq

/-- **Whoever has had a context built counts it**, before it calls its hook. -/
theorem grown (h : Tended invoke m config factory (B.withSlots 1) s) (ho : c.owner = some m)
    (hp : s.places[i]? = some (.grown ⟨m, .call hook arguments, none⟩ c))
    (hq : ∀ t, Tended invoke m config factory
      (Books.back config { B with created := B.created + 1 } (c.after invoke hook arguments)) t →
        Q (invoke c.script hook arguments).outcome [c.service invoke i m hook arguments] t) :
    GoesThrough invoke i Q s := by
  have hadv : Advances invoke m config factory i s (.running m hook arguments c)
      (Books.withSlots { B with created := B.created + 1 } 1) := by
    intro chosen
    simp only [step?, hp, withManager, h.there, Option.map_some, countGrown]
    rw [onManager_eq h.there, report_unarmed (by exact h.unarmed)]
    exact ⟨_, rfl, ((Undisturbed.refl h.unarmed).setManager m _).record _,
      manager?_setManager h.there _⟩
  exact h.turn hp (by simp) hadv fun t ht hp => ht.running ho hp hq

/-- **Whoever has taken a slot has a context built for it.** -/
theorem building (h : Tended invoke m config factory (B.withSlots 1) s)
    (hp : s.places[i]? = some (.building ⟨m, .call hook arguments, none⟩))
    (hq : ∀ (c : Context σ) (t : State σ), Tended invoke m config factory
      (Books.back config { B with created := B.created + 1 } (c.after invoke hook arguments)) t →
        Q (invoke c.script hook arguments).outcome [c.service invoke i m hook arguments] t) :
    GoesThrough invoke i Q s := by
  obtain ⟨t, c, hbuild, hmanagers, hplaces, -, harmed, -⟩ := h.loads.build h.unarmed
  have hs : Undisturbed s t := ⟨harmed, products_of_build hbuild, congrArg List.length hplaces⟩
  have hthere := (manager?_of_managers_eq hmanagers m).trans h.there
  have hadv : Advances invoke m config factory i s
      (.grown ⟨m, .call hook arguments, none⟩ { c with owner := some m }) (B.withSlots 1) := by
    refine fun chosen => ⟨t, ?_, hs, hthere⟩
    simp only [step?, hp, withManager, h.there, Option.map_some, grow]
    rw [show ((B.withSlots 1).pool config factory).factory = factory from rfl, hbuild]
  exact h.turn hp (by simp) hadv fun t ht hp => ht.grown rfl hp (hq _)

/-- **A call of a hook goes through**, with a context that is lent for it from the books. -/
theorem asking (h : Tended invoke m config factory B s) (hfree : B.active < config.maxActive)
    (hp : s.places[i]? = some (.asking ⟨m, .call hook arguments, none⟩))
    (hq : ∀ c B₁ t, B.Lends c B₁ →
      Tended invoke m config factory (B₁.back config (c.after invoke hook arguments)) t →
        Q (invoke c.script hook arguments).outcome [c.service invoke i m hook arguments] t) :
    GoesThrough invoke i Q s := by
  have hs := Undisturbed.refl h.unarmed
  have hstep : ∀ chosen, s.step? invoke i chosen =
      some (s.ask i ⟨m, .call hook arguments, none⟩ (B.pool config factory)) := by
    intro chosen
    simp only [step?, hp, withManager, h.there, Option.map_some]
  cases hidle : B.idle with
  | cons c rest =>
    have howned : c.owner = some m :=
      h.reachable.registered.stocked m _ h.there c (by
        rw [Books.pool, Stock.contexts, hidle]
        exact List.mem_cons_self)
    have hoffer : (B.pool config factory).stock.offer =
        .lent c (.pool config (B.active + 1) rest) := by
      rw [Books.pool, hidle]
      rfl
    have hadv : Advances invoke m config factory i s (.running m hook arguments c)
        (Books.withSlots { B with idle := rest } 1) := by
      intro chosen
      rw [hstep, ask, if_neg (by exact Bool.false_ne_true), if_neg (by exact Bool.false_ne_true),
        hoffer]
      dsimp only
      rw [report_unarmed (by exact h.unarmed)]
      exact ⟨_, rfl, (hs.setManager m _).record _, manager?_setManager h.there _⟩
    exact h.turn hp (by simp) hadv fun t ht hp =>
      ht.running howned hp fun t ht => hq c _ t (.atHand hidle) ht
  | nil =>
    have hoffer : (B.pool config factory).stock.offer =
        .reserved (.pool config (B.active + 1) B.idle) := by
      rw [Books.pool, hidle]
      exact if_pos hfree
    have hadv : Advances invoke m config factory i s
        (.building ⟨m, .call hook arguments, none⟩) (B.withSlots 1) := by
      intro chosen
      rw [hstep, ask, if_neg (by exact Bool.false_ne_true), if_neg (by exact Bool.false_ne_true),
        hoffer]
      exact ⟨_, rfl, hs.setManager m _, manager?_setManager h.there _⟩
    exact h.turn hp (by simp) hadv fun t ht hp =>
      ht.building hp fun c t ht => hq c _ t (.built hidle) ht

end Tended

end State

/-! ## Calls in turn -/

/-- A hook that a caller is to call. -/
structure Errand where
  caller : Nat
  hook : String
  arguments : List HookArg

/-- The move with which the caller begins. -/
def Errand.begins (e : Errand) (m : ManagerId) : Move σ :=
  .begin e.caller (.acquire m (.call e.hook e.arguments) none)

/-- What a call was made for. -/
def Service.errand (call : Service) : Errand :=
  ⟨call.caller, call.hook, call.arguments⟩

namespace State

variable {invoke : Invoke σ} {s s₀ t : State σ} {mv : Move σ} {moves : List (Move σ)}
  {i chosen factory : Nat} {m : ManagerId} {config : PoolConfig} {B : Books σ} {e : Errand}
  {errands : List Errand} {built : List (Context σ)}

/-- **Callers call hooks through a manager one after the other**: each one begins when the one
before has come to an outcome, and nobody else does anything. -/
inductive InTurn (invoke : Invoke σ) (m : ManagerId) :
    State σ → List (Move σ) → List Errand → State σ → Prop where
  | nil {s : State σ} : InTurn invoke m s [] [] s
  | cons {s s₁ s₂ t : State σ} {turns moves : List (Move σ)} {e : Errand} {errands : List Errand}
    (hb : s.move invoke (e.begins m) = some s₁) (hturns : ∀ mv ∈ turns, mv.IsStepOf e.caller)
    (hr : s₁.run invoke turns = some s₂) (ho : s₂.outcome? e.caller ≠ none)
    (h : InTurn invoke m s₂ moves errands t) :
    InTurn invoke m s (e.begins m :: (turns ++ moves)) (e :: errands) t

namespace Tended

/-- The move with which a call begins, if its caller is free. -/
theorem begins (h : Tended invoke m config factory B s) (e : Errand) :
    s.move invoke (e.begins m) = if s.isFree e.caller then
      some (s.put e.caller (.asking ⟨m, .call e.hook e.arguments, none⟩)) else none := by
  simp only [Errand.begins, State.move, begin?, withManager, h.there, Option.map_some]
  rfl

/-- **A call that has begun goes through**, and the books are those of one round more. -/
theorem call (h : Tended invoke m config factory B s) (hfree : B.active < config.maxActive)
    (hb : s.move invoke (e.begins m) = some t) :
    GoesThrough invoke e.caller (fun o calls u => ∃ c B₁, B.Lends c B₁ ∧
      o = (invoke c.script e.hook e.arguments).outcome ∧
        calls = [c.service invoke e.caller m e.hook e.arguments] ∧
          Tended invoke m config factory (B₁.back config (c.after invoke e.hook e.arguments)) u)
      t := by
  have ht := h.reachable.move hb
  rw [h.begins e] at hb
  split at hb
  case isFalse => cases hb
  rename_i hcaller
  obtain rfl := Option.some.inj hb
  have hplace := placeOf_put (le_of_isFree hcaller)
    (.asking ⟨m, .call e.hook e.arguments, none⟩ : Place σ)
  have htended : Tended invoke m config factory B
      (s.put e.caller (.asking ⟨m, .call e.hook e.arguments, none⟩)) :=
    { reachable := ht
      there := (manager?_of_managers_eq (managers_put ..) m).trans h.there
      unarmed := (armed_put ..).trans h.unarmed
      loads := h.loads.of_products (products_put ..) }
  exact htended.asking hfree (mem_places_of_placeOf hplace (by simp))
    fun c B₁ u hl hu => ⟨c, B₁, hl, rfl, rfl, hu⟩

end Tended

/-- **Calls that are made one after the other are rounds of the books.** -/
theorem InTurn.rounds (h : InTurn invoke m s moves errands t)
    (hs : Tended invoke m config factory B s) (hfree : B.active < config.maxActive) :
    ∃ B', Tended invoke m config factory B' t ∧
      Rounds invoke config B (s.callsOn invoke moves) B' ∧
        (s.callsOn invoke moves).map Service.errand = errands := by
  induction h generalizing B with
  | nil => exact ⟨B, hs, .nil, rfl⟩
  | @cons s s₁ s₂ t turns moves e errands hb hturns hr ho h ih =>
    obtain ⟨o, calls, ⟨c, B₁, hl, rfl, rfl, hs₂⟩, htell⟩ :=
      (hs.call hfree hb).always turns s₂ hturns hr ho
    obtain ⟨B', ht, hrounds, herrands⟩ := ih hs₂ (by rwa [hl.active_back])
    have hcalls : s.callsOn invoke (e.begins m :: (turns ++ moves)) =
        c.service invoke e.caller m e.hook e.arguments :: s₂.callsOn invoke moves := by
      rw [callsOn_cons hb, (htell moves).2]
      rfl
    rw [hcalls]
    exact ⟨B', ht, .cons hl rfl rfl hrounds, congrArg _ herrands⟩

/-! ## Callers who can go on -/

theorem outcome?_of_steps {j : Nat} (h : s.run invoke moves = some t)
    (hmoves : ∀ mv ∈ moves, mv.IsStepOf j) (ho : s.outcome? i ≠ none) : t.outcome? i ≠ none := by
  induction moves generalizing s with
  | nil => exact Option.some.inj h ▸ ho
  | cons mv moves ih =>
    obtain ⟨⟨chosen, rfl⟩, hrest⟩ := List.forall_mem_cons.1 hmoves
    obtain ⟨u, hm, h⟩ := run_cons h
    exact ih h hrest (outcome?_of_move hm nofun ho)

/-- **Callers who are there can make calls one after the other.** -/
theorem Tended.inTurn (h : Tended invoke m config factory B s) (hfree : B.active < config.maxActive)
    (hall : ∀ e ∈ errands, s.outcome? e.caller ≠ none) :
    ∃ moves t, InTurn invoke m s moves errands t := by
  induction errands generalizing s B with
  | nil => exact ⟨[], s, .nil⟩
  | cons e errands ih =>
    obtain ⟨hnow, hlater⟩ := List.forall_mem_cons.1 hall
    have hb := h.begins e
    rw [if_pos (isFree_of_outcome? hnow)] at hb
    have hcall := h.call hfree hb
    obtain ⟨turns, s₂, hturns, hr, ho⟩ := hcall.possible
    obtain ⟨-, -, ⟨c, B₁, hl, -, -, hs₂⟩, -⟩ := hcall.always turns s₂ hturns hr ho
    have hall₂ : ∀ e' ∈ errands, s₂.outcome? e'.caller ≠ none := by
      intro e' he'
      by_cases hsame : e'.caller = e.caller
      · exact hsame ▸ ho
      · have hother : ∀ operation, (e.begins m : Move σ) ≠ .begin e'.caller operation := by
          intro operation he
          exact hsame (Move.begin.inj he).1.symm
        exact outcome?_of_steps hr hturns (outcome?_of_move hb hother (hlater e' he'))
    obtain ⟨moves, t, ht⟩ := ih hs₂ (by rwa [hl.active_back]) hall₂
    exact ⟨_, t, .cons hb hturns hr ho ht⟩

/-! ## A pool that is new -/

/-- **A pool that has just been made** has its first contexts at hand, and none lent. -/
theorem Reachable.tended (hs : Reachable invoke s₀)
    (hp : s₀.placeOf i = .warming m (.pool config) factory built)
    (hm : s₀.move invoke (.run i chosen) = some s) (hmade : s.placeOf i = .finished (.made m))
    (ha : s₀.armed = none) (hloads : s₀.Loads factory) :
    config.Valid ∧ built.length = config.startCount ∧
      Tended invoke m config factory ⟨0, built, built.length, 0⟩ s := by
  have hl : config.startCount ≤ built.length := by
    obtain ⟨-, u, -, hu, -, hplace⟩ | ⟨-, hplace | ⟨r, hr, -⟩⟩ := move_cases hm i
    · rw [hp] at hu
      rw [hmade] at hplace
      cases hu with
      | making h =>
        cases h with
        | made hl => exact hl
        | warmFailed _ _ ho =>
          obtain rfl := Place.finished.inj hplace
          rcases ho with ho | ho <;> cases ho
        | _ => cases hplace
      | opening h | givingBack h | stopping h => cases h
    · rw [hplace, hp] at hmade
      cases hmade
    · rw [hp] at hr
      cases hr
  have hstep : some (s₀.warm i m (.pool config) factory built) = some s :=
    (move_warming hp chosen).symm.trans hm
  have hthere := hs.registered.made (t := s₀.warm i m (.pool config) factory built)
    (mem_places_of_placeOf hp (by simp)) hl
  rw [warm_full ha (by exact hl)] at hstep hthere
  obtain ⟨hM, hlength, hvalid⟩ := hthere (managers_put _ i _)
  obtain rfl := Option.some.inj hstep
  refine ⟨hvalid config rfl, hlength, hs.move hm, ?_, ?_, hloads.of_products (products_move hm)⟩
  · rw [hM, firstManager, Books.pool, hlength]
    rfl
  · exact (armed_put ..).trans ha

/-- **Calls of hooks that are made one after the other on a new pool**, whose factory loads a script
whenever it is asked, can be made by whoever is there, however many they are.  What the pool tells
of itself after them is known in closed form.  If it keeps some contexts and starts with some, these
serve the calls by turns, and each finds its script as its last call has left it. -/
theorem called_in_turn (hs : Reachable invoke s₀)
    (hp : s₀.placeOf i = .warming m (.pool config) factory built)
    (hm : s₀.move invoke (.run i chosen) = some s) (hmade : s.placeOf i = .finished (.made m))
    (ha : s₀.armed = none) (hloads : s₀.Loads factory) :
    (∀ errands : List Errand, (∀ e ∈ errands, s.outcome? e.caller ≠ none) →
      ∃ moves t, InTurn invoke m s moves errands t) ∧
    ∀ moves errands t, InTurn invoke m s moves errands t →
      (t.manager? m).map Manager.stats = some (statsAfter config errands.length) ∧
      (s.callsOn invoke moves).map Service.errand = errands ∧
      (1 ≤ config.maxIdle → 1 ≤ config.startCount →
        (built.map Context.id).Nodup ∧
        (∀ k < errands.length, ((s.callsOn invoke moves)[k]?).map Service.context =
          (built[rotaAt config.maxIdle config.startCount k]?).map Context.id) ∧
        ∀ c ∈ built, Serial invoke t c.script
          ((s.callsOn invoke moves).filter (·.context = c.id))) := by
  obtain ⟨hvalid, hlength, hnew⟩ := hs.tended hp hm hmade ha hloads
  have hfree : (Books.mk 0 built built.length 0).active < config.maxActive := hvalid.1
  refine ⟨fun errands hall => hnew.inTurn hfree hall, fun moves errands t h => ?_⟩
  obtain ⟨B', ht, hrounds, herrands⟩ := h.rounds hnew hfree
  have hcount : (s.callsOn invoke moves).length = errands.length := by
    rw [← herrands, List.length_map]
  have hids := hs.nodup_placeOf i
  rw [hp] at hids
  refine ⟨?_, herrands, fun hsome hstart => ?_⟩
  · rw [ht.there, ← hcount, ← hrounds.stats hlength]
    rfl
  have hbuilt : built ≠ [] := List.ne_nil_of_length_pos (by omega)
  refine ⟨hids, fun k hk => ?_, fun c hc => hrounds.serial hsome hbuilt hids t hc⟩
  have hcontexts := congrArg (·[k]?) (hrounds.contexts hsome hbuilt)
  dsimp only at hcontexts
  rw [getElem?_rota hsome (by simpa using hbuilt) (by rwa [hcount]), List.getElem?_map,
    List.getElem?_map, List.length_map, hlength] at hcontexts
  exact hcontexts

/-- The hypotheses are satisfiable: a pool that starts with three contexts and keeps two destroys
the first one after its call, and the fourth call finds the context of the second one. -/
theorem called_in_turn_rotating :
    ∃ (s₀ s : State Nat) (built : List (Context Nat)), Reachable counting s₀ ∧
      s₀.placeOf 0 = .warming ⟨1⟩ (.pool ⟨3, 3, 2⟩) 0 built ∧
        s₀.move counting (.run 0 0) = some s ∧ s.placeOf 0 = .finished (.made ⟨1⟩) ∧
          s₀.armed = none ∧ s₀.Loads 0 ∧
            ∃ moves t, InTurn counting ⟨1⟩ s moves (List.replicate 4 ⟨0, "tick", []⟩) t ∧
              (t.manager? ⟨1⟩).map Manager.stats = some ⟨0, 2, 3, 1, 3, 2⟩ ∧
                ((s.callsOn counting moves)[3]?).map Service.context = some ⟨2⟩ := by
  have hrun : (initial [counter]).run counting
    [.begin 0 (.establish 0 (.pool ⟨3, 3, 2⟩)), .run 0 0, .run 0 0, .run 0 0] = some _ := rfl
  have hs := (reachable_initial counting [counter]).run hrun
  have hloads : (initial [counter]).Loads 0 := ⟨counter, rfl, fun n => ⟨_, _, _, rfl⟩⟩
  have hloads := hloads.of_products (products_run hrun)
  refine ⟨_, _, _, hs, rfl, rfl, rfl, rfl, hloads, ?_⟩
  obtain ⟨hcan, hthen⟩ := called_in_turn (i := 0) hs rfl
    (show State.move counting _ (.run 0 0) = some _ from rfl) rfl rfl hloads
  obtain ⟨moves, t, hturn⟩ := hcan (List.replicate 4 ⟨0, "tick", []⟩) fun e he => by
    rw [List.eq_of_mem_replicate he]
    exact Option.some_ne_none _
  obtain ⟨hstats, -, hrota⟩ := hthen moves _ t hturn
  obtain ⟨-, hcontexts, -⟩ := hrota (by decide) (by decide)
  exact ⟨moves, t, hturn, hstats, hcontexts 3 (by decide)⟩

end State
end Lending
end HookPool
