/-
# How a pool comes into being

A caller that makes a pool asks the factory for one context after the other, as many as the pool
starts with.  On the way, all that it has asked for was loaded, and it has the contexts, in the
order in which they were made (`Furnishing`).  Its next turn brings one more, or is its last: either
the pool is there with just these contexts, or the factory has failed and they are destroyed
(`Founds`).

Main statement: a caller with a valid configuration comes to a pool or to the first error of the
factory, whatever others do meanwhile (`pool_founded`).  But valid sizes may be too large to set
room aside for, and then the caller comes to grief before it has asked the factory for anything
(`valid_but_too_large`).
-/
import Mathlib.Data.List.Forall2
import HookPool.Proofs.Lending.Alone
import HookPool.Proofs.Lending.Factories
import HookPool.Proofs.Lending.Ownership
import HookPool.Proofs.Lending.UnderWay

namespace HookPool
namespace Lending

variable {σ : Type}

namespace State

variable {invoke : Invoke σ} {s t t' : State σ} {mv : Move σ} {moves : List (Move σ)}
  {i chosen factory : Nat} {config : PoolConfig} {built : List (Context σ)} {maker : Factory σ}
  {c : Context σ} {m : ManagerId}

/-! ## What a caller asks a factory for -/

/-- What comes of asking the factory in a move from `s` to `t`, if it is asked. -/
def asked? (s : State σ) (factory : Nat) (t : State σ) : Option (Product σ) :=
  if t.timesAsked factory = s.timesAsked factory then none else s.product? factory

/-- What has come of each time that the caller has asked the factory on a run. -/
def productsOn (invoke : Invoke σ) (i factory : Nat) (s : State σ) (moves : List (Move σ)) :
    List (Product σ) :=
  s.gather invoke (fun s mv t => (if mv.isTurnOf i then s.asked? factory t else none).toList) moves

theorem productsOn_append {rest : List (Move σ)} (h : s.run invoke moves = some t) :
    s.productsOn invoke i factory (moves ++ rest) =
      s.productsOn invoke i factory moves ++ t.productsOn invoke i factory rest :=
  gather_append h

theorem productsOn_one (hm : s.move invoke mv = some t) (hmv : mv.isTurnOf i = true) :
    s.productsOn invoke i factory [mv] = (s.asked? factory t).toList := by
  rw [productsOn, gather_one hm, hmv, if_pos rfl]

theorem productsOn_other (hm : s.move invoke mv = some t) (hmv : mv.isTurnOf i = false) :
    s.productsOn invoke i factory [mv] = [] := by
  rw [productsOn, gather_one hm, hmv, if_neg Bool.false_ne_true]
  rfl

/-- A factory that was not asked has come to nothing. -/
theorem asked?_of_factories (h : t.factories = s.factories) : s.asked? factory t = none :=
  if_pos (timesAsked_of_factories h factory)

/-- **What comes of asking a factory that is there** is told. -/
theorem asked?_of_build {b : Built σ} (hb : s.build factory = (t, b))
    (hf : factory < s.factories.length) (ht : t'.factories = t.factories) :
    s.asked? factory t' = s.product? factory := by
  have hasked := timesAsked_of_build hb hf
  rw [← timesAsked_of_factories ht] at hasked
  exact if_neg (by omega)

theorem length_factories (h : t.products = s.products) :
    t.factories.length = s.factories.length := by
  have hlen := congrArg List.length h
  rwa [products, products, List.length_map, List.length_map] at hlen

/-- No context is unmade. -/
theorem contextsMade_le (h : s.move invoke mv = some t) : s.contextsMade ≤ t.contextsMade := by
  obtain ⟨i, u, -, -, hf⟩ | hidle := move_turn h
  · rw [hf.contextsMade]
    exact Nat.le_add_right _ _
  · exact Nat.le_of_eq hidle.contextsMade.symm

/-! ## On the way -/

/-- The caller makes a pool since `s`, and has the contexts `built` in `t`. -/
structure Furnishing (invoke : Invoke σ) (s t : State σ) (i factory : Nat) (config : PoolConfig)
    (moves : List (Move σ)) (built : List (Context σ)) : Prop where
  place : t.placeOf i = .warming s.nextManager (.pool config) factory built
  within : built.length ≤ config.startCount
  unborn : t.manager? s.nextManager = none
  /-- Each context is what the factory has come to, one time after the other. -/
  products : List.Forall₂ (fun c product => ∃ lines, product = .loaded c.name c.script lines) built
    (s.productsOn invoke i factory (.begin i (.establish factory (.pool config)) :: moves))
  owned : ∀ c ∈ built, c.owner = some s.nextManager
  recent : ∀ c ∈ built, ¬s.Issued c.id ∧ t.Issued c.id
  inOrder : built.Pairwise fun c d => c.id.number < d.id.number
  turns : turnsOf i moves = built.length

/-- Nobody else has to do with a pool that is being made. -/
theorem Reachable.unborn {plan : Plan} (hs : Reachable invoke t)
    (hp : t.placeOf i = .warming m plan factory built) :
    t.Numbered m ∧ t.manager? m = none ∧ built.length ≤ plan.startCount ∧
      ∀ c ∈ built, c.owner = some m := by
  have hpos := placeOf_le_total (s := t) (f := Place.warms m) rfl i
  rw [hp, Place.warms, if_pos rfl] at hpos
  obtain ⟨hnumbered, hnone, -⟩ := hs.registered.unborn m hpos
  have hmarked := hs.registered.marked_placeOf i
  rw [hp] at hmarked
  exact ⟨hnumbered, hnone, hmarked.2.1, hmarked.1⟩

/-- The step of a caller that makes a pool. -/
theorem move_warming {plan : Plan} (hp : t.placeOf i = .warming m plan factory built)
    (chosen : Nat) : t.move invoke (.run i chosen) = some (t.warm i m plan factory built) := by
  simp only [State.move, step?, mem_places_of_placeOf hp (by simp)]

theorem warm_full {plan : Plan} (ha : t.armed = none) (hl : plan.startCount ≤ built.length) :
    t.warm i m plan factory built =
      ((t.record (madeEvent m plan (((t.factories[factory]?).map Factory.name).getD "")
        built)).setManager m (some (firstManager plan factory built))).finish i (.made m) := by
  rw [warm, if_neg (Nat.not_lt.2 hl)]
  dsimp only
  rw [report_unarmed ha]

theorem warm_failed {plan : Plan} {e : Error} {t₀ : State σ} (hl : built.length < plan.startCount)
    (hb : t.build factory = (t₀, .failed e)) (ha : t.armed = none) :
    t.warm i m plan factory built = (t₀.wreckAll built).finish i (.failed e) := by
  rw [warm, if_pos hl, hb]
  dsimp only
  rw [destroyAll_unarmed (armed_of_build hb ha)]

@[simp] theorem factories_wreckAll (s : State σ) (contexts : List (Context σ)) :
    (s.wreckAll contexts).factories = s.factories := by
  unfold wreckAll
  induction contexts generalizing s with
  | nil => rfl
  | cons c rest ih => exact ih (s.wreck c)

/-- A caller that begins to make a pool of valid sizes that are not too large. -/
theorem begin_establish (hfree : s.isFree i = true) (hf : factory < s.factories.length)
    (hvalid : config.Valid) : s.move invoke (.begin i (.establish factory (.pool config))) =
      some (if fits config then
        s.takeManagerId.put i (.warming s.nextManager (.pool config) factory [])
      else s.takeManagerId.finish i (.panicked capacityPayload)) := by
  simp only [State.move, begin?, hfree, hf, if_true, establish,
    (PoolConfig.fault?_eq_none_iff config).2 hvalid]

/-- What a caller has that has just begun to make a pool. -/
theorem Furnishing.start (hs : Reachable invoke s)
    (hm : s.move invoke (.begin i (.establish factory (.pool config))) = some t)
    (ht : ∀ o, t.placeOf i ≠ .finished o) : Furnishing invoke s t i factory config [] [] := by
  have hplace : t.placeOf i = .warming s.nextManager (.pool config) factory [] := by
    obtain ⟨-, u, -, hu, -, hplace⟩ | ⟨hno, -⟩ := move_cases hm i
    · generalize s.placeOf i = p at hu
      cases hu with
      | beginning h =>
        cases h with
        | establishes => exact hplace
        | misconfigured | tooLarge => exact absurd hplace (ht _)
    · rw [Move.isTurnOf, decide_eq_true rfl] at hno
      cases hno
  have hfactories : t.factories = s.factories := by
    simp only [State.move, begin?] at hm
    split at hm
    · split at hm
      · obtain ⟨t₀, q, hq, -, hfactories, -⟩ := establish_cases s i factory (.pool config)
        rw [← Option.some.inj hm, hq, factories_put, hfactories]
      · cases hm
    · cases hm
  exact
    { place := hplace
      within := Nat.zero_le _
      unborn := ((hs.move hm).unborn hplace).2.1
      products := by
        rw [productsOn_one hm (decide_eq_true rfl), asked?_of_factories hfactories]
        exact .nil
      owned := by simp
      recent := by simp
      inOrder := .nil
      turns := rfl }

/-- **A turn of others changes nothing for a caller that makes a pool.** -/
theorem Furnishing.other (hw : Furnishing invoke s t i factory config moves built)
    (hr : s.run invoke (.begin i (.establish factory (.pool config)) :: moves) = some t)
    (ht : Reachable invoke t) (hm : t.move invoke mv = some t') (hmv : mv.isTurnOf i = false) :
    Furnishing invoke s t' i factory config (moves ++ [mv]) built := by
  have hplace : t'.placeOf i = .warming s.nextManager (.pool config) factory built := by
    obtain ⟨hturn, -⟩ | ⟨-, hplace | ⟨r, hasleep, -⟩⟩ := move_cases hm i
    · rw [hmv] at hturn
      cases hturn
    · exact hplace.trans hw.place
    · rw [hw.place] at hasleep
      cases hasleep
  exact
    { place := hplace
      within := hw.within
      unborn := ((ht.move hm).unborn hplace).2.1
      products := by
        rw [← List.cons_append, productsOn_append hr, productsOn_other hm hmv, List.append_nil]
        exact hw.products
      owned := hw.owned
      recent := fun c hc =>
        ⟨(hw.recent c hc).1, (hw.recent c hc).2.1,
          Nat.le_trans (hw.recent c hc).2.2 (contextsMade_le hm)⟩
      inOrder := hw.inOrder
      turns := by
        rw [← hw.turns, turnsOf, turnsOf, List.countP_append, List.countP_singleton, hmv]
        rfl }

/-- **A context more**: what the factory has come to in a turn of the caller that makes a pool. -/
theorem Furnishing.grow (hw : Furnishing invoke s t i factory config moves built)
    (hr : s.run invoke (.begin i (.establish factory (.pool config)) :: moves) = some t)
    (ht : Reachable invoke t) (hm : t.move invoke (.run i chosen) = some t')
    (hf : factory < t.factories.length) (hle : s.contextsMade ≤ t.contextsMade)
    (hl : built.length < config.startCount) {t₀ : State σ}
    (hb : t.build factory = (t₀, .context c)) :
    Furnishing invoke s t' i factory config (moves ++ [.run i chosen])
      (built ++ [{ c with owner := some s.nextManager }]) := by
  obtain ⟨hid, -, aside⟩ := build_context hb
  have hstep : t.move invoke (.run i chosen) = some _ := move_warming hw.place chosen
  rw [warm, if_pos (by exact hl), hb] at hstep
  obtain rfl := Option.some.inj (hm.symm.trans hstep)
  have hi : i ≤ t₀.places.length := by
    rw [aside.places]
    exact Nat.le_of_lt
      (List.getElem?_eq_some_iff.1 (mem_places_of_placeOf hw.place (by simp))).1
  have hplace := placeOf_put hi (.warming s.nextManager (.pool config) factory
    (built ++ [{ c with owner := some s.nextManager }]))
  obtain ⟨-, hunborn, hwithin, howned⟩ := (ht.move hm).unborn hplace
  obtain ⟨c', lines, hc, hproduct⟩ | ⟨e, lines, he, -⟩ | ⟨payload, hp, -⟩ := build_product hb
  case inr.inl => cases he
  case inr.inr => cases hp
  cases hc
  have hnumber : c.id.number = t.contextsMade + 1 := congrArg ContextId.number hid
  have hmade : (t₀.put i (.warming s.nextManager (.pool config) factory
      (built ++ [{ c with owner := some s.nextManager }]))).contextsMade = t.contextsMade + 1 := by
    rw [contextsMade_put, aside.contextsMade]
  exact
    { place := hplace
      within := hwithin
      unborn := hunborn
      products := by
        rw [← List.cons_append, productsOn_append hr, productsOn_one hm (decide_eq_true rfl),
          asked?_of_build hb hf (factories_put ..), hproduct]
        exact List.rel_append hw.products (.cons ⟨lines, rfl⟩ .nil)
      owned := howned
      recent := fun d hd => by
        rcases List.mem_append.1 hd with hd | hd
        · obtain ⟨hnew, hpos, hlast⟩ := hw.recent d hd
          exact ⟨hnew, hpos, by rw [hmade]; exact Nat.le_succ_of_le hlast⟩
        · obtain rfl := List.mem_singleton.1 hd
          simp only [Issued, hmade, hnumber]
          omega
      inOrder := List.pairwise_append.2 ⟨hw.inOrder, List.pairwise_singleton .., fun d hd e he => by
        obtain rfl := List.mem_singleton.1 he
        have hlast := (hw.recent d hd).2.2
        simp only [hnumber]
        omega⟩
      turns := by
        rw [turnsOf, List.countP_append, ← turnsOf, hw.turns, List.length_append]
        simp [Move.isTurnOf] }

/-- **How far a caller is that makes a pool.** -/
theorem Since.furnishing (h : Since invoke s i (.establish factory (.pool config)) moves t)
    (hf : factory < s.factories.length) :
    s.contextsMade ≤ t.contextsMade ∧
      ∃ built, Furnishing invoke s t i factory config moves built := by
  refine h.induction (P := fun moves t => (∀ o, t.placeOf i ≠ .finished o) →
    s.contextsMade ≤ t.contextsMade ∧ ∃ built, Furnishing invoke s t i factory config moves built)
    (fun t hm ht => ⟨contextsMade_le hm, [], .start h.reachable hm ht⟩) ?_ h.unfinished
  intro moves t mv t' h ih hm h' ht'
  obtain ⟨hle, built, hw⟩ := ih h.unfinished
  refine ⟨Nat.le_trans hle (contextsMade_le hm), ?_⟩
  obtain ⟨hmv, u, -, hu, -, hplace⟩ | ⟨hmv, -⟩ := move_cases hm i
  case inr => exact ⟨built, hw.other h.run h.reaches hm hmv⟩
  have hlength := length_factories (products_run h.run)
  rw [hw.place] at hu
  obtain ⟨chosen, rfl⟩ := hu.runs rfl
  cases hu with
  | making hmaking =>
    cases hmaking with
    | @warmed m plan factory built t₀ c hl hb hi =>
      exact ⟨_, hw.grow h.run h.reaches hm (by rw [hlength]; exact hf) hle hl hb⟩
    | warmFailed | warmCrash | madeCrash | made => exact absurd hplace (ht' _)
  | opening h | givingBack h | stopping h => cases h

/-! ## One more turn -/

/-- What comes of one more turn of a caller that has the contexts `built` for its pool. -/
inductive Founds (invoke : Invoke σ) (s t t' : State σ) (i factory : Nat) (config : PoolConfig)
    (moves : List (Move σ)) (mv : Move σ) (built : List (Context σ)) : Prop where
  | grows {c : Context σ} (hl : built.length < config.startCount)
    (h : Since invoke s i (.establish factory (.pool config)) (moves ++ [mv]) t')
    (hw : Furnishing invoke s t' i factory config (moves ++ [mv]) (built ++ [c]))
  /-- The factory has failed: the contexts are destroyed, and there is no pool. -/
  | fails {e : Error} {lines : List ByteArray} (hl : built.length < config.startCount)
    (hasked : t.productsOn invoke i factory [mv] = [.failed e lines])
    (hplace : t'.placeOf i = .finished (.failed e))
    (hended : t'.ended = (built.map Context.id).reverse ++ t.ended)
    (hnone : t'.manager? s.nextManager = none)
  /-- The pool is there, with the contexts at hand and none lent. -/
  | made (hl : built.length = config.startCount)
    (hasked : t.productsOn invoke i factory [mv] = [])
    (hplace : t'.placeOf i = .finished (.made s.nextManager))
    (hended : t'.ended = t.ended)
    (hM : t'.manager? s.nextManager = some
      { stock := .pool config 0 built, factory, created := config.startCount })

/-- Whoever has all contexts for its pool comes to the pool. -/
theorem Furnishing.made (hw : Furnishing invoke s t i factory config moves built)
    (ht : Reachable invoke t) (ha : t.armed = none) (hl : config.startCount ≤ built.length)
    (hm : t.move invoke (.run i chosen) =
      some (t.warm i s.nextManager (.pool config) factory built)) :
    Founds invoke s t (t.warm i s.nextManager (.pool config) factory built) i factory config moves
      (.run i chosen) built := by
  have hat := mem_places_of_placeOf hw.place (by simp)
  have hthere := Registered.made (t := t.warm i s.nextManager (.pool config) factory built)
    ht.registered hat hl
  rw [warm_full ha (by exact hl)] at hm hthere ⊢
  obtain ⟨hM, hlength, -⟩ := hthere (managers_put _ i _)
  refine .made hlength ?_ (placeOf_put ?_ _) ?_ hM
  · rw [productsOn_one hm (decide_eq_true rfl)]
    exact congrArg Option.toList (asked?_of_factories (by exact factories_finish ..))
  · exact Nat.le_of_lt (List.getElem?_eq_some_iff.1 hat).1
  · rw [finish, ended_put]
    rfl

/-- Whoever is failed by the factory is left with its error, and without its contexts. -/
theorem Furnishing.fails (hw : Furnishing invoke s t i factory config moves built)
    (ha : t.armed = none) (hl : built.length < config.startCount)
    (hf : factory < t.factories.length) {t₀ : State σ} {e : Error} {lines : List ByteArray}
    (hb : t.build factory = (t₀, .failed e))
    (hproduct : t.product? factory = some (.failed e lines))
    (hm : t.move invoke (.run i chosen) =
      some (t.warm i s.nextManager (.pool config) factory built)) :
    Founds invoke s t (t.warm i s.nextManager (.pool config) factory built) i factory config moves
      (.run i chosen) built := by
  have hat := mem_places_of_placeOf hw.place (by simp)
  have hwreck := (build_failed hb).trans (wreckAll_aside t₀ built)
  rw [warm_failed (by exact hl) hb ha] at hm ⊢
  have hasked : t.productsOn invoke i factory [.run i chosen] = [.failed e lines] := by
    rw [productsOn_one hm (decide_eq_true rfl), asked?_of_build hb hf (by simp), hproduct]
    rfl
  refine .fails hl hasked (placeOf_put ?_ _) ?_ ?_
  · rw [hwreck.places]
    exact Nat.le_of_lt (List.getElem?_eq_some_iff.1 hat).1
  · rw [finish, ended_put, hwreck.ended, List.append_nil]
  · rw [finish, manager?_of_managers_eq (managers_put ..),
      manager?_of_managers_eq hwreck.managers]
    exact hw.unborn

/-- **The turn of a caller that makes a pool** brings one more context, or its first failure, or the
pool. -/
theorem Furnishing.founds (hw : Furnishing invoke s t i factory config moves built)
    (h : Since invoke s i (.establish factory (.pool config)) moves t)
    (hmaker : s.factories[factory]? = some maker) (htame : maker.Tame) (ha : t.armed = none)
    (chosen : Nat) : ∃ t', t.move invoke (.run i chosen) = some t' ∧
      Founds invoke s t t' i factory config moves (.run i chosen) built := by
  have hstep : t.move invoke (.run i chosen) = some _ := move_warming hw.place chosen
  have ht := h.reaches
  have hlength := length_factories (products_run h.run)
  have hf := (List.getElem?_eq_some_iff.1 hmaker).1
  by_cases hl : built.length < config.startCount
  case neg => exact ⟨_, hstep, hw.made ht ha (Nat.le_of_not_lt hl) hstep⟩
  obtain ⟨t₀, b, hb⟩ : ∃ t₀ b, t.build factory = (t₀, b) := ⟨_, _, rfl⟩
  obtain ⟨c, lines, rfl, -⟩ | ⟨e, lines, rfl, hproduct⟩ | ⟨payload, rfl, hcause⟩ :=
    build_product hb
  · have hgrown := hw.grow h.run ht hstep (hlength ▸ hf) (h.furnishing hf).1 hl hb
    exact ⟨_, hstep, .grows hl (h.append hstep (by simp) fun o ho => by
      rw [hgrown.place] at ho
      cases ho) hgrown⟩
  · exact ⟨_, hstep, hw.fails ha hl (hlength ▸ hf) hb hproduct hstep⟩
  · -- the factory does not take its caller along, and neither does the sink
    obtain ⟨n, hproduct⟩ := product?_of_run hmaker h.run
    rw [hproduct] at hcause
    obtain hnone | hpanics | ⟨-, harmed⟩ := hcause
    · cases hnone
    · exact absurd (Option.some.inj hpanics) (htame n payload)
    · exact absurd ha harmed

/-- **A caller with a valid configuration comes to a pool or to the first error of the factory**,
unless the sizes are too large.  Whatever others do meanwhile, and if neither the factory nor the
sink takes it along, each of its turns brings one more context, until all that the pool starts with
are at hand in the order in which they were made, and the pool is there; or the factory fails, it
has this error, its contexts are destroyed, and there is no pool.  If the sizes are too large, it
comes to grief at once. -/
theorem pool_founded (hs : Reachable invoke s) (hfree : s.isFree i = true)
    (hmaker : s.factories[factory]? = some maker) (htame : maker.Tame) (hvalid : config.Valid) :
    ∃ t₀, s.move invoke (.begin i (.establish factory (.pool config))) = some t₀ ∧
      (fits config = true →
        Since invoke s i (.establish factory (.pool config)) [] t₀ ∧
          ∀ moves t, Since invoke s i (.establish factory (.pool config)) moves t →
            ∃ built, Furnishing invoke s t i factory config moves built ∧
              (t.armed = none → ∀ chosen, ∃ t', t.move invoke (.run i chosen) = some t' ∧
                Founds invoke s t t' i factory config moves (.run i chosen) built)) ∧
      (fits config = false → t₀.placeOf i = .finished (.panicked capacityPayload) ∧
        t₀.timesAsked factory = s.timesAsked factory ∧ t₀.manager? s.nextManager = none) := by
  have hf := (List.getElem?_eq_some_iff.1 hmaker).1
  have hi := le_of_isFree hfree
  have hbegin : s.move invoke (.begin i (.establish factory (.pool config))) = some _ :=
    begin_establish hfree hf hvalid
  refine ⟨_, hbegin, fun hfits => ⟨?_, fun moves t h => ?_⟩, fun hfits => ⟨?_, ?_, ?_⟩⟩
  · refine ⟨hs, run_one hbegin, nofun, fun o ho => ?_⟩
    rw [if_pos hfits, placeOf_put (by exact hi)] at ho
    cases ho
  · obtain ⟨-, built, hw⟩ := h.furnishing hf
    exact ⟨built, hw, fun ha chosen => hw.founds h hmaker htame ha chosen⟩
  all_goals rw [if_neg (by rw [hfits]; exact Bool.false_ne_true)]
  · exact placeOf_put (by exact hi) _
  · exact timesAsked_of_factories (by exact factories_finish ..) factory
  · rw [finish, manager?_of_managers_eq (managers_put ..), takeManagerId, manager?_of_append rfl]
    exact manager?_eq_none fun h => absurd h.2 (Nat.not_succ_le_self _)

/-- A factory that loads two scripts and then fails. -/
def scant : Factory Unit where
  name := "scant"
  product n := if n < 2 then .loaded "scant" () [] else .failed (.io (.os 2)) []

/-- The hypotheses are satisfiable: one caller has the first context for its pool, another one gets
the second context of the factory for itself, and the pool comes to nothing. -/
theorem pool_founded_none_left :
    let moves : List (Move Unit) := [.run 0 0, .begin 1 (.create 0), .run 1 0]
    ∃ (t t' : State Unit) (built : List (Context Unit)), (PoolConfig.mk 2 2 0).Valid ∧
      Since inert (initial [scant]) 0 (.establish 0 (.pool ⟨2, 2, 0⟩)) moves t ∧
        t.move inert (.run 0 0) = some t' ∧ t'.placeOf 0 = .finished (.failed (.io (.os 2))) ∧
          Founds inert (initial [scant]) t t' 0 0 ⟨2, 2, 0⟩ moves (.run 0 0) built := by
  intro moves
  have htame : scant.Tame := by
    intro n payload h
    unfold scant at h
    dsimp only at h
    split at h <;> cases h
  have h : Since inert (initial [scant]) 0 (.establish 0 (.pool ⟨2, 2, 0⟩)) moves _ :=
    { reachable := reachable_initial inert [scant]
      run := rfl
      once := by simp [moves]
      unfinished := nofun }
  obtain ⟨t₀, -, hfits, -⟩ := pool_founded h.reachable
    (show (initial [scant]).isFree 0 = true from rfl)
    (show (initial [scant]).factories[0]? = some scant from rfl) htame
    (show (PoolConfig.mk 2 2 0).Valid by decide)
  obtain ⟨built, -, hturn⟩ := (hfits rfl).2 moves _ h
  obtain ⟨t', hm, hfounds⟩ := hturn rfl 0
  obtain rfl := Option.some.inj (hm.symm.trans rfl)
  exact ⟨_, _, built, by decide, h, hm, rfl, hfounds⟩

/-- **Sizes that pass for valid may be too large**: a pool that would keep as many contexts as it
may is not made, although it starts with none, and its maker comes to grief. -/
theorem valid_but_too_large :
    let config : PoolConfig := ⟨0, 1, 18446744073709551615⟩
    config.Valid ∧ plain.Tame ∧ ∃ t : State Unit,
      (initial [plain]).move inert (.begin 0 (.establish 0 (.pool config))) = some t ∧
        t.placeOf 0 = .finished (.panicked capacityPayload) ∧ t.manager? ⟨1⟩ = none := by
  exact ⟨by decide, nofun, _, rfl, rfl, rfl⟩

end State
end Lending
end HookPool
