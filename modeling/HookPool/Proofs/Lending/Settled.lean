/-
# The script that a context is left with

A call of a hook changes the script of its context, and nothing else does but a holder that works
with it.  `Has` says that a context is somewhere, with the script that it is left with once the call
that is under way is over.  So seen, a context changes only when it is lent for a call, and a new
one has the script that a factory has loaded for it (`has_of_move`).

No two contexts that are somewhere share an identity (`Reachable.has_unique`), and an identity that
was given out is that of one which is somewhere or has ended (`Reachable.has_or_ended`).
-/
import HookPool.Proofs.Lending.Caller
import HookPool.Proofs.Lending.Ownership

namespace HookPool
namespace Lending

variable {σ : Type}

/-- The context after a call of one of its hooks. -/
def Context.after (invoke : Invoke σ) (c : Context σ) (hook : String) (arguments : List HookArg) :
    Context σ :=
  { c with script := (invoke c.script hook arguments).script }

/-- The contexts in the hands of a caller, as they are once the call is over that it makes. -/
def Place.settled (invoke : Invoke σ) : Place σ → List (Context σ)
  | .running _ hook arguments c => [c.after invoke hook arguments]
  | place => place.contexts

theorem Place.stamp_settled (invoke : Invoke σ) (p : Place σ) :
    (p.settled invoke).map Context.stamp = p.contexts.map Context.stamp := by
  cases p <;> rfl

namespace State

variable {invoke : Invoke σ} {s t : State σ} {mv : Move σ} {moves : List (Move σ)} {i : Nat}
  {p : Place σ} {u : Upshot σ} {m : ManagerId} {id : ContextId} {c d e : Context σ}

/-! ## Scripts that are loaded -/

/-- The script that a factory loads if it is asked now. -/
def loaded? (s : State σ) (factory : Nat) : Option σ :=
  (s.factories[factory]?).bind fun maker =>
    match maker.product maker.asked with
    | .loaded _ script _ => some script
    | .failed .. | .panics _ => none

/-- The script that is loaded in a move. -/
def loads? (s : State σ) : Move σ → Option σ
  | .run caller _ =>
    match s.placeOf caller with
    | .building r => (s.manager? r.manager).bind fun manager => s.loaded? manager.factory
    | .warming _ plan factory built =>
      if built.length < plan.startCount then s.loaded? factory else none
    | .creating factory => s.loaded? factory
    | _ => none
  | _ => none

/-- The scripts that are loaded on a run, the first one first. -/
def loadsOn (invoke : Invoke σ) (s : State σ) : List (Move σ) → List σ
  | [] => []
  | mv :: moves =>
    match s.move invoke mv with
    | some t => (s.loads? mv).toList ++ t.loadsOn invoke moves
    | none => []

theorem loadsOn_cons (hm : s.move invoke mv = some t) (rest : List (Move σ)) :
    s.loadsOn invoke (mv :: rest) = (s.loads? mv).toList ++ t.loadsOn invoke rest := by
  rw [loadsOn, hm]

theorem loaded?_of_build_context {factory : Nat} (h : s.build factory = (t, .context c)) :
    s.loaded? factory = some c.script := by
  unfold build at h
  unfold loaded?
  cases hmaker : s.factories[factory]? with
  | none => rw [hmaker] at h; cases h
  | some maker =>
    rw [hmaker] at h
    dsimp only at h
    rw [Option.bind_some]
    cases hproduct : maker.product maker.asked with
    | panics payload => rw [hproduct] at h; cases h
    | failed error lines => rw [hproduct] at h; cases h
    | loaded name script lines =>
      rw [hproduct] at h
      dsimp only at h
      split at h <;> cases h
      rfl

theorem loaded?_of_build_failed {factory : Nat} {error : Error}
    (h : s.build factory = (t, .failed error)) : s.loaded? factory = none := by
  unfold build at h
  unfold loaded?
  cases hmaker : s.factories[factory]? with
  | none => rw [hmaker] at h; cases h
  | some maker =>
    rw [hmaker] at h
    dsimp only at h
    rw [Option.bind_some]
    cases hproduct : maker.product maker.asked with
    | panics payload => rfl
    | failed error' lines => rfl
    | loaded name script lines =>
      rw [hproduct] at h
      dsimp only at h
      split at h <;> cases h

/-- **The scripts of the contexts that are made in a turn are those that are loaded in it**, if
nobody comes to grief. -/
theorem Turn.loads? (h : Turn invoke s i mv p u) (hp : s.placeOf i = p)
    (hcalm : u.place.isGrieving = false) : u.made.map Context.script = (s.loads? mv).toList := by
  cases h with
  | opening h =>
    cases h with
    | built hm hb =>
      simp [State.loads?, hp, hm, loaded?_of_build_context hb]
    | buildFailed hm hb => simp [State.loads?, hp, hm, loaded?_of_build_failed hb]
    | buildFailedCrash => cases hcalm
    | buildCrash => cases hcalm
    | _ => simp [State.loads?, hp]
  | making h =>
    cases h with
    | warmed hl hb => simp [State.loads?, hp, hl, loaded?_of_build_context hb]
    | warmFailed hl hb => simp [State.loads?, hp, hl, loaded?_of_build_failed hb]
    | warmCrash => cases hcalm
    | madeCrash => cases hcalm
    | made hl => simp [State.loads?, hp, Nat.not_lt.2 hl]
    | created hb => simp [State.loads?, hp, loaded?_of_build_context hb]
    | createFailed hb => simp [State.loads?, hp, loaded?_of_build_failed hb]
    | createCrash => cases hcalm
  | givingBack h => cases h <;> simp [State.loads?, hp]
  | stopping h => cases h <;> simp [State.loads?, hp]
  | beginning h => cases h <;> rfl
  | dealing h => cases h <;> rfl
  | works => rfl
  | rousing => rfl

/-! ## Contexts and where they are -/

/-- The context is somewhere, as it is once the call that is under way is over. -/
def Has (invoke : Invoke σ) (s : State σ) (c : Context σ) : Prop :=
  (∃ m, c ∈ contextsUnder (s.manager? m)) ∨ ∃ i, c ∈ (s.placeOf i).settled invoke

theorem mem_contexts_of_manager? (h : c ∈ contextsUnder (s.manager? m)) : c ∈ s.contexts := by
  have hn : s.Numbered m := by
    cases hm : s.manager? m with
    | none => rw [hm] at h; cases h
    | some M => exact numbered_of_manager? hm
  exact List.mem_append_left _ (List.mem_flatMap.2 ⟨_, List.mem_of_getElem? hn.getElem?, h⟩)

theorem mem_contexts_of_placeOf (h : c ∈ (s.placeOf i).contexts) : c ∈ s.contexts := by
  cases hi : s.places[i]? with
  | none => rw [placeOf, hi] at h; cases h
  | some q =>
    rw [placeOf_eq hi] at h
    exact List.mem_append_right _ (List.mem_flatMap.2 ⟨q, List.mem_of_getElem? hi, h⟩)

/-- Where the contexts are that a caller has in its hands. -/
def spotOf (s : State σ) (i : Nat) : Spot :=
  if (s.placeOf i).isHolding then .held i else .underway i

theorem mem_idsAt_spotOf (h : c ∈ (s.placeOf i).settled invoke) :
    c.id ∈ s.idsAt (s.spotOf i) := by
  have hid : c.id ∈ (s.placeOf i).contexts.map Context.id := by
    have hstamp := List.mem_map_of_mem (f := Context.stamp) h
    rw [Place.stamp_settled] at hstamp
    obtain ⟨d, hd, he⟩ := List.mem_map.1 hstamp
    exact List.mem_map.2 ⟨d, hd, congrArg Prod.fst he⟩
  unfold spotOf
  split
  · rwa [idsAt, if_pos ‹_›]
  · rwa [idsAt, if_neg ‹_›]

theorem spotOf_inj {i j : Nat} (h : s.spotOf i = s.spotOf j) : i = j := by
  unfold spotOf at h
  split at h <;> split at h <;> cases h <;> rfl

theorem spotOf_ne_atHand (s : State σ) (i : Nat) (m : ManagerId) : s.spotOf i ≠ .atHand m := by
  unfold spotOf
  split <;> exact nofun

/-- **No two contexts share an identity**, whichever calls are under way. -/
theorem Reachable.has_unique (hs : Reachable invoke s) (hc : s.Has invoke c)
    (hd : s.Has invoke d) (h : c.id = d.id) : c = d := by
  obtain ⟨m, hc⟩ | ⟨i, hc⟩ := hc <;> obtain ⟨k, hd⟩ | ⟨j, hd⟩ := hd
  · exact hs.eq_of_id (mem_contexts_of_manager? hc) (mem_contexts_of_manager? hd) h
  · have hcid : c.id ∈ s.idsAt (.atHand m) := List.mem_map_of_mem hc
    exact absurd (h ▸ mem_idsAt_spotOf hd) (hs.alone (s.spotOf_ne_atHand j m).symm hcid)
  · have hdid : d.id ∈ s.idsAt (.atHand k) := List.mem_map_of_mem hd
    exact absurd (h ▸ mem_idsAt_spotOf hc) (hs.alone (s.spotOf_ne_atHand i k).symm hdid)
  · by_cases hij : i = j
    · subst hij
      cases hp : s.placeOf i with
      | running m hook arguments e =>
        rw [hp] at hc hd
        rw [List.mem_singleton.1 hc, List.mem_singleton.1 hd]
      | _ =>
        refine hs.eq_of_id (mem_contexts_of_placeOf (i := i) ?_)
          (mem_contexts_of_placeOf (i := i) ?_) h
        · rw [hp] at hc ⊢
          exact hc
        · rw [hp] at hd ⊢
          exact hd
    · have halone := hs.alone (fun he => hij (spotOf_inj he)) (mem_idsAt_spotOf hc)
      exact absurd (h ▸ mem_idsAt_spotOf hd) halone

/-- A context that is somewhere is among those of the state, with another script perhaps. -/
theorem stamp_of_has (hc : s.Has invoke c) : ∃ e ∈ s.contexts, e.stamp = c.stamp := by
  obtain ⟨m, hc⟩ | ⟨i, hc⟩ := hc
  · exact ⟨c, mem_contexts_of_manager? hc, rfl⟩
  · have hstamp := List.mem_map_of_mem (f := Context.stamp) hc
    rw [Place.stamp_settled] at hstamp
    obtain ⟨e, he, hes⟩ := List.mem_map.1 hstamp
    exact ⟨e, mem_contexts_of_placeOf he, hes⟩

theorem Reachable.issued_of_has (hs : Reachable invoke s) (hc : s.Has invoke c) :
    s.Issued c.id := by
  obtain ⟨e, he, hes⟩ := stamp_of_has hc
  rw [← show e.id = c.id from congrArg Prod.fst hes]
  exact hs.issued_of_mem he

/-- **An identity that was given out is that of a context which is somewhere**, or has ended. -/
theorem Reachable.has_or_ended (hs : Reachable invoke s) (h : s.Issued id) :
    (∃ c, s.Has invoke c ∧ c.id = id) ∨ id ∈ s.ended := by
  have hcensus := hs.census id
  rw [if_pos h] at hcensus
  obtain ⟨spot, hspot⟩ := exists_idsAt (by omega :
    0 < weigh (among id) s.contexts + s.ended.count id)
  have hplace : ∀ i, id ∈ (s.placeOf i).contexts.map Context.id →
      ∃ c, s.Has invoke c ∧ c.id = id := by
    intro i hi
    obtain ⟨d, hd, rfl⟩ := List.mem_map.1 hi
    have hstamp := List.mem_map_of_mem (f := Context.stamp) hd
    rw [← Place.stamp_settled invoke] at hstamp
    obtain ⟨c, hc, he⟩ := List.mem_map.1 hstamp
    exact ⟨c, .inr ⟨i, hc⟩, congrArg Prod.fst he⟩
  cases spot with
  | atHand m =>
    obtain ⟨c, hc, rfl⟩ := List.mem_map.1 hspot
    exact .inl ⟨c, .inl ⟨m, hc⟩, rfl⟩
  | held i =>
    rw [idsAt] at hspot
    split at hspot
    · exact .inl (hplace i hspot)
    · cases hspot
  | underway i =>
    rw [idsAt] at hspot
    split at hspot
    · cases hspot
    · exact .inl (hplace i hspot)
  | ended => exact .inr hspot

/-! ## One turn -/

/-- A context that is made in a move, for a manager that somebody builds for. -/
structure Born (s : State σ) (mv : Move σ) (c : Context σ) : Prop where
  id : c.id = s.nextContext
  script : s.loads? mv = some c.script
  owner : ∀ m, c.owner = some m → ∃ i, 0 < (s.placeOf i).builds m ∨ 0 < (s.placeOf i).warms m

theorem Turn.born (h : Turn invoke s i mv (s.placeOf i) u) (hcalm : u.place.isGrieving = false)
    (hd : d ∈ u.made) : s.Born mv d := by
  have hone : u.made = [d] ∧ d.id = s.nextContext := by
    obtain hnil | ⟨c, hmade, hid⟩ := h.made_next
    · rw [hnil] at hd
      cases hd
    · rw [hmade] at hd ⊢
      obtain rfl := List.mem_singleton.1 hd
      exact ⟨rfl, hid⟩
  have hscript := h.loads? rfl hcalm
  rw [hone.1] at hscript
  refine ⟨hone.2, ?_, fun m hm => ⟨i, ?_⟩⟩
  · cases hl : s.loads? mv with
    | none => rw [hl] at hscript; cases hscript
    | some script => rw [hl] at hscript; exact congrArg some (List.cons.inj hscript).1.symm
  · generalize s.placeOf i = p at h
    cases h with
    | opening h =>
      cases h with
      | built =>
        obtain rfl := List.mem_singleton.1 hd
        obtain rfl := Option.some.inj hm
        exact .inl (by simp)
      | buildCrash => cases hcalm
      | _ => cases hd
    | making h =>
      cases h with
      | warmed =>
        obtain rfl := List.mem_singleton.1 hd
        obtain rfl := Option.some.inj hm
        exact .inr (by simp)
      | created hb hi ho =>
        obtain rfl := List.mem_singleton.1 hd
        rw [ho] at hm
        cases hm
      | warmCrash => cases hcalm
      | createCrash => cases hcalm
      | _ => cases hd
    | givingBack h => cases h <;> cases hd
    | stopping h => cases h <;> cases hd
    | beginning h => cases h <;> cases hd
    | dealing h => cases h <;> cases hd
    | works => cases hd
    | rousing => cases hd

/-- What is at hand under a number is taken from there when the manager is replaced. -/
theorem mem_taken {manager : Option (Manager σ)} (hM : s.manager? m = some M)
    (hd : d ∈ M.stock.contexts) : d ∈ Shift.taken s (.replace m manager) := by
  rw [Shift.taken, hM]
  exact hd

theorem served_eq_running {r : Request} {hook : String} {arguments : List HookArg}
    (h : r.served d = .running m hook arguments c) : r.manager = m ∧ d = c := by
  unfold Request.served at h
  split at h <;> cases h
  exact ⟨rfl, rfl⟩

theorem uses_of_request? {r : Request} (h : p.request? = some r) : p.uses r.manager = true := by
  cases p <;> cases h <;> exact beq_self_eq_true _

/-- **A context that a call begins with was somewhere before**, and its manager lends it to an
opener. -/
theorem Turn.lends {hook : String} {arguments : List HookArg} (h : Turn invoke s i mv p u)
    (hplace : u.place = .running m hook arguments c) :
    (∃ chosen, mv = .run i chosen) ∧ (c ∈ p.settled invoke ∨ c ∈ u.shift.taken s) ∧
      (∃ r, p.request? = some r ∧ r.manager = m) ∧ ∃ M, s.manager? m = some M := by
  cases h with
  | opening h =>
    cases h with
    | @lent r M d rest hm hp hc ho =>
      obtain ⟨rfl, rfl⟩ := served_eq_running hplace
      refine ⟨⟨_, rfl⟩, .inr (mem_taken hm ?_), ⟨r, rfl, rfl⟩, M, hm⟩
      rw [Stock.contexts_of_offer_lent ho]
      exact List.mem_cons_self
    | @counted r M d hm =>
      obtain ⟨rfl, rfl⟩ := served_eq_running hplace
      exact ⟨⟨_, rfl⟩, .inl (List.mem_singleton_self _), ⟨r, rfl, rfl⟩, M, hm⟩
    | _ => cases hplace
  | givingBack h => cases h <;> cases hplace
  | stopping h => cases h <;> cases hplace
  | making h => cases h <;> cases hplace
  | beginning h => cases h <;> cases hplace
  | dealing h => cases h <;> cases hplace
  | works => cases hplace
  | rousing => cases hplace

/-- An opener that is served has its context as it was, or for a call. -/
theorem settled_served {r : Request} (hd : d ∈ (r.served c).settled invoke) :
    d = c ∨ ∃ m hook arguments, r.served c = .running m hook arguments c ∧
      d = c.after invoke hook arguments := by
  unfold Request.served at hd ⊢
  split at hd
  · exact .inl (List.mem_singleton.1 hd)
  · exact .inl (List.mem_singleton.1 hd)
  · exact .inr ⟨_, _, _, rfl, List.mem_singleton.1 hd⟩

/-- An opener is left with a context from the stock or with its own one, as it was or for a call. -/
theorem Opening.settled {chosen : Nat} (h : Opening s chosen p u)
    (hd : d ∈ u.place.settled invoke ∨ d ∈ u.shift.brought) :
    (d ∈ p.settled invoke ∨ d ∈ u.shift.taken s) ∨ d ∈ u.made ∨
      ∃ m hook arguments c, u.place = .running m hook arguments c ∧
        d = c.after invoke hook arguments := by
  cases h with
  | @lent r M c rest hm hp hc ho =>
    have hcontexts := Stock.contexts_of_offer_lent ho
    rcases hd with hd | hd
    · rcases settled_served hd with rfl | ⟨k, hook, arguments, hplace, he⟩
      · exact .inl (.inr (mem_taken hm (hcontexts ▸ List.mem_cons_self)))
      · exact .inr (.inr ⟨k, hook, arguments, c, hplace, he⟩)
    · exact .inl (.inr (mem_taken hm (hcontexts ▸ List.mem_cons_of_mem c hd)))
  | @lentCrash r M c rest hm hp hc ho =>
    rcases hd with hd | hd
    · cases hd
    · rw [Shift.brought, contextsUnder] at hd
      refine .inl (.inr (mem_taken hm ?_))
      rw [Stock.contexts_of_offer_lent ho]
      exact List.mem_cons_of_mem c hd
  | @reserved r M rest hm hp hc ho =>
    have hnil : Shift.brought (.replace r.manager (some (M.withStock rest))) = [] :=
      (Stock.of_offer_reserved ho).2.2.1
    rw [hnil] at hd
    rcases hd with hd | hd <;> cases hd
  | built =>
    rcases hd with hd | hd
    · exact .inr (.inl hd)
    · cases hd
  | @counted r M c hm =>
    rcases hd with hd | hd
    · rcases settled_served hd with rfl | ⟨k, hook, arguments, hplace, he⟩
      · exact .inl (.inl (List.mem_singleton_self _))
      · exact .inr (.inr ⟨k, hook, arguments, c, hplace, he⟩)
    · exact .inl (.inr (mem_taken hm hd))
  | countedCrash hm =>
    rcases hd with hd | hd
    · cases hd
    · exact .inl (.inr (mem_taken hm hd))
  | gaveUp hm =>
    rcases hd with hd | hd
    · cases hd
    · exact .inl (.inr (mem_taken hm (by simpa [Shift.brought, contextsUnder] using hd)))
  | _ => rcases hd with hd | hd <;> cases hd

/-- Who gives a context back leaves it, as its call leaves it, among those that are at hand. -/
theorem GivingBack.settled {chosen : Nat} (h : GivingBack invoke s chosen p u)
    (hd : d ∈ u.place.settled invoke ∨ d ∈ u.shift.brought) :
    d ∈ p.settled invoke ∨ d ∈ u.shift.taken s := by
  cases h with
  | called | undefined | undefinedCrash | refused =>
    rcases hd with hd | hd
    · exact .inl hd
    · cases hd
  | @kept k M aim c hm =>
    rcases hd with hd | hd
    · cases hd
    · rcases Stock.mem_put hd with rfl | hd
      · exact .inl (List.mem_singleton_self _)
      · exact .inr (mem_taken hm (by simpa using hd))
  | keptCrash hm =>
    rcases hd with hd | hd
    · cases hd
    · exact .inr (mem_taken hm (by simpa [Shift.brought, contextsUnder] using hd))
  | turnedAway hm =>
    rcases hd with hd | hd
    · exact .inl hd
    · exact .inr (mem_taken hm (by simpa [Shift.brought, contextsUnder] using hd))
  | evicted hm =>
    rcases hd with hd | hd
    · cases hd
    · exact .inr (mem_taken hm hd)
  | _ => rcases hd with hd | hd <;> cases hd

/-- A shutdown takes the contexts that are at hand, and the first one of them is dropped each time.
-/
theorem Stopping.settled (h : Stopping s p u)
    (hd : d ∈ u.place.settled invoke ∨ d ∈ u.shift.brought) :
    d ∈ p.settled invoke ∨ d ∈ u.shift.taken s := by
  cases h with
  | stopped hm =>
    rcases hd with hd | hd
    · exact .inr (mem_taken hm hd)
    · simp [Shift.brought, contextsUnder] at hd
  | drained hm =>
    rcases hd with hd | hd
    · exact .inl (List.mem_cons_of_mem _ hd)
    · exact .inr (mem_taken hm hd)
  | drainCrash hm =>
    rcases hd with hd | hd
    · cases hd
    · exact .inr (mem_taken hm hd)
  | _ => rcases hd with hd | hd <;> cases hd

theorem Making.settled (h : Making s p u)
    (hd : d ∈ u.place.settled invoke ∨ d ∈ u.shift.brought) :
    d ∈ p.settled invoke ∨ d ∈ u.made := by
  cases h with
  | warmed =>
    rcases hd with hd | hd
    · exact List.mem_append.1 hd
    · cases hd
  | made =>
    rcases hd with hd | hd
    · cases hd
    · exact .inl (mem_firstManager hd)
  | created =>
    rcases hd with hd | hd
    · exact .inr hd
    · cases hd
  | _ => rcases hd with hd | hd <;> cases hd

/-- Who does something with its context has it unchanged as long as it has it. -/
theorem Dealing.settled {handling : Handling} (h : Dealing s handling p u)
    (hd : d ∈ u.place.settled invoke ∨ d ∈ u.shift.brought) : d ∈ p.settled invoke := by
  cases h with
  | letsGo | unwinds => rcases hd with hd | hd <;> cases hd
  | _ =>
    rcases hd with hd | hd
    · exact hd
    · cases hd

/-- A context that a turn leaves somewhere was there before, or was made or lent for a call in it.
-/
theorem Turn.settled (h : Turn invoke s i mv p u) (huse : ∀ script, mv ≠ .use i script)
    (hd : d ∈ u.place.settled invoke ∨ d ∈ u.shift.brought) :
    (d ∈ p.settled invoke ∨ d ∈ u.shift.taken s) ∨ d ∈ u.made ∨
      ∃ m hook arguments c, u.place = .running m hook arguments c ∧
        d = c.after invoke hook arguments := by
  cases h with
  | opening h => exact h.settled hd
  | givingBack h => exact .inl (h.settled hd)
  | stopping h => exact .inl (h.settled hd)
  | making h =>
    rcases h.settled hd with hd | hd
    · exact .inl (.inl hd)
    · exact .inr (.inl hd)
  | beginning h => cases h <;> rcases hd with hd | hd <;> cases hd
  | dealing h => exact .inl (.inl (h.settled hd))
  | works => exact absurd rfl (huse _)
  | rousing => rcases hd with hd | hd <;> cases hd

/-! ## One move -/

theorem has_of_taken (h : c ∈ u.shift.taken s) : s.Has invoke c := by
  cases hs : u.shift with
  | keep => rw [hs] at h; cases h
  | number => rw [hs] at h; cases h
  | replace m manager => rw [hs] at h; exact .inl ⟨m, h⟩

/-- **A move changes a context only if it lends it for a call.**  A context that is somewhere after
a move that is not the work of a holder was there before, or was made, or is the one that is lent.
-/
theorem has_of_move (hr : s.Registered) (hm : s.move invoke mv = some t) (hc : t.Calm)
    (huse : ∀ i script, mv ≠ .use i script) (hd : t.Has invoke d) :
    s.Has invoke d ∨ s.Born mv d ∨ ∃ i chosen m hook arguments c, mv = .run i chosen ∧
      t.placeOf i = .running m hook arguments c ∧ d = c.after invoke hook arguments := by
  obtain ⟨i, u, hi, hu, hf⟩ | hidle := move_turn hm
  · have hself := hf.placeOf_self hi
    have hnew : d ∈ u.place.settled invoke ∨ d ∈ u.shift.brought → s.Has invoke d ∨
        s.Born mv d ∨ ∃ i chosen m hook arguments c, mv = .run i chosen ∧
          t.placeOf i = .running m hook arguments c ∧ d = c.after invoke hook arguments := by
      intro hd
      obtain (hd | hd) | hd | ⟨m, hook, arguments, c, hplace, he⟩ := hu.settled (huse i) hd
      · exact .inl (.inr ⟨i, hd⟩)
      · exact .inl (has_of_taken hd)
      · exact .inr (.inl (hu.born (hself ▸ hc.placeOf i) hd))
      · obtain ⟨chosen, rfl⟩ := (hu.lends hplace).1
        exact .inr (.inr ⟨i, chosen, m, hook, arguments, c, rfl, hself.trans hplace, he⟩)
    obtain ⟨m, hd⟩ | ⟨j, hd⟩ := hd
    · rw [hr.manager? hu hf m] at hd
      cases hs : u.shift with
      | keep => rw [hs] at hd; exact .inl (.inl ⟨m, hd⟩)
      | number => rw [hs] at hd; exact .inl (.inl ⟨m, hd⟩)
      | replace k manager =>
        rw [hs, Shift.lookUp] at hd
        split at hd
        · exact hnew (.inr (by rwa [hs]))
        · exact .inl (.inl ⟨m, hd⟩)
    · by_cases hji : j = i
      · subst hji
        exact hnew (.inl (hself ▸ hd))
      · obtain hsame | ⟨r, -, hr⟩ := hf.placeOf_other hi hji
        · exact .inl (.inr ⟨j, hsame ▸ hd⟩)
        · rw [hr] at hd
          cases hd
  · refine .inl ?_
    obtain ⟨m, hd⟩ | ⟨j, hd⟩ := hd
    · exact .inl ⟨m, by rwa [manager?_of_managers_eq hidle.managers] at hd⟩
    · exact .inr ⟨j, by rwa [State.placeOf, hidle.places] at hd⟩

/-- **A context is lent for a call as it was left**, to an opener, by a manager that is there. -/
theorem has_of_lent {chosen : Nat} {hook : String} {arguments : List HookArg}
    (hr : s.Registered) (hm : s.move invoke (.run i chosen) = some t)
    (hp : t.placeOf i = .running m hook arguments c) :
    s.Has invoke c ∧ (∃ r, (s.placeOf i).request? = some r ∧ r.manager = m) ∧
      ∃ M M', s.manager? m = some M ∧ t.manager? m = some M' := by
  obtain ⟨-, u, -, hu, -, hplace⟩ | ⟨hturn, -⟩ := move_cases hm i
  · obtain ⟨-, hc, ⟨r, hreq, rfl⟩, M, hM⟩ := hu.lends (hplace.symm.trans hp)
    have hat : s.places[i]? = some (s.placeOf i) := mem_places_of_placeOf rfl fun o ho => by
      rw [ho] at hreq
      cases hreq
    obtain ⟨M', hM'⟩ := manager?_of_uses hr hm hM hat (uses_of_request? hreq)
    exact ⟨hc.elim (fun hc => .inr ⟨i, hc⟩) has_of_taken, ⟨r, hreq, rfl⟩, M, M', hM, hM'⟩
  · rw [Move.isTurnOf, decide_eq_true rfl] at hturn
    cases hturn

/-- A script is loaded for each context that is made, and for no other one. -/
theorem length_loads? (hm : s.move invoke mv = some t) (hc : t.Calm) :
    t.contextsMade = s.contextsMade + (s.loads? mv).toList.length := by
  obtain ⟨i, u, hi, hu, hf⟩ | hidle := move_turn hm
  · have hloads := hu.loads? rfl (hf.placeOf_self hi ▸ hc.placeOf i)
    rw [hf.contextsMade, ← hloads, List.length_map]
  · obtain ⟨nanos, rfl⟩ | ⟨text, rfl⟩ := hidle.move <;> exact hidle.contextsMade

end State
end Lending
end HookPool
