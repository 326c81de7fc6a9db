/-
# Where a context is, it is alone

A context is at hand with one manager, or held by one caller, or in the hands of one caller that is
in the middle of an operation, or it has ended; `Spot` lists these.  In every state that a run leads
to, each identity that was given out is in exactly one of them and there once, and no other identity
is anywhere (`Reachable.ownership`).

The proof counts: identities of contexts that are there, and of those that have ended, are the ones
given out so far, each one once (`Reachable.census`).  Every move keeps that up, since it exchanges
contexts and numbers those that it makes.
-/
import HookPool.Proofs.Lending.Conservation

namespace HookPool
namespace Lending

variable {σ : Type}

/-- Where a context can be. -/
inductive Spot where
  /-- Among those that the manager has at hand. -/
  | atHand (m : ManagerId)
  /-- With a caller that holds it, with or without a lease, or was refused its return. -/
  | held (caller : Nat)
  /-- With a caller in the middle of an operation: that has just built it, calls one of its hooks,
  hands it over, or destroys it. -/
  | underway (caller : Nat)
  | ended
  deriving DecidableEq

/-- The caller has a context and takes no step with it on its own. -/
def Place.isHolding : Place σ → Bool
  | .holding .. | .refused _ => true
  | _ => false

namespace State

variable {invoke : Invoke σ} {s t : State σ} {mv : Move σ} {moves : List (Move σ)}
  {id : ContextId} {m : ManagerId}

/-- The identities of the contexts in a spot. -/
def idsAt (s : State σ) : Spot → List ContextId
  | .atHand m => (contextsUnder (s.manager? m)).map Context.id
  | .held caller =>
    if (s.placeOf caller).isHolding then (s.placeOf caller).contexts.map Context.id else []
  | .underway caller =>
    if (s.placeOf caller).isHolding then [] else (s.placeOf caller).contexts.map Context.id
  | .ended => s.ended

/-- The identity was given out. -/
def Issued (s : State σ) (id : ContextId) : Prop :=
  0 < id.number ∧ id.number ≤ s.contextsMade

instance (s : State σ) (id : ContextId) : Decidable (s.Issued id) :=
  inferInstanceAs (Decidable (_ ∧ _))

/-! ## The census -/

/-- One for each context with the identity. -/
def among (id : ContextId) (stamp : ContextId × Option ManagerId) : Nat :=
  if stamp.1 = id then 1 else 0

theorem weigh_among (id : ContextId) (contexts : List (Context σ)) :
    weigh (among id) contexts = (contexts.map Context.id).count id := by
  induction contexts with
  | nil => rfl
  | cons c contexts ih =>
    rw [weigh_cons, ih, List.map_cons, List.count_cons, Nat.add_comm]
    by_cases h : c.id = id <;> simp [among, Context.stamp, h]

/-- **Each identity that was given out is that of one context that is there or has ended**, and no
other one is. -/
theorem Reachable.census (hs : Reachable invoke s) (id : ContextId) :
    weigh (among id) s.contexts + s.ended.count id = if s.Issued id then 1 else 0 := by
  refine hs.induction (P := fun s => weigh (among id) s.contexts + s.ended.count id =
    if s.Issued id then 1 else 0) ?_ ?_
  · intro factories
    have hnone : ¬(initial factories).Issued id := fun h => absurd h.2 (Nat.not_le.2 h.1)
    rw [if_neg hnone]
    rfl
  · intro s t mv hs ih hm
    obtain ⟨made, gone, hex, hmade⟩ := hs.exchange hm
    have hweigh := hex.contexts (among id)
    have hended : t.ended.count id = weigh (among id) gone + s.ended.count id := by
      rw [hex.ended, List.count_append, List.count_reverse, weigh_among]
    have hcount := hex.contextsMade
    obtain rfl | ⟨c, rfl, hc⟩ := hmade
    · have hsame : t.Issued id ↔ s.Issued id := by rw [Issued, hcount]; rfl
      simp only [hsame]
      rw [weigh_nil] at hweigh
      omega
    · rw [weigh_cons, weigh_nil] at hweigh
      have hmade : t.contextsMade = s.contextsMade + 1 := hcount
      by_cases hid : c.id = id
      · have hnew : t.Issued id ∧ ¬s.Issued id := by
          rw [← hid, hc]
          simp only [Issued, nextContext]
          omega
        rw [if_neg hnew.2] at ih
        rw [if_pos hnew.1]
        simp only [among, Context.stamp, hid, if_true] at hweigh
        omega
      · have hsame : t.Issued id ↔ s.Issued id := by
          have hne : id.number ≠ s.contextsMade + 1 := by
            intro h
            obtain ⟨n⟩ := id
            exact hid (hc.trans (congrArg ContextId.mk h.symm))
          simp only [Issued]
          omega
        simp only [hsame]
        simp only [among, Context.stamp, hid, if_false] at hweigh
        omega

theorem Reachable.nodup (hs : Reachable invoke s) : (s.contexts.map Context.id).Nodup := by
  refine List.nodup_iff_count.2 fun id => ?_
  have := hs.census id
  rw [weigh_among] at this
  split at this <;> omega

/-- Contexts in the hands of one caller are different ones. -/
theorem Reachable.nodup_placeOf (hs : Reachable invoke s) (i : Nat) :
    ((s.placeOf i).contexts.map Context.id).Nodup := by
  unfold placeOf
  cases hp : s.places[i]? with
  | none => exact List.nodup_nil
  | some p =>
    refine List.Nodup.sublist (List.Sublist.map _ ?_) hs.nodup
    have hmem := List.mem_map_of_mem (f := Place.contexts) (List.mem_of_getElem? hp)
    exact (List.sublist_flatten_of_mem hmem).trans (List.sublist_append_right ..)

theorem Reachable.issued_of_mem (hs : Reachable invoke s) {c : Context σ} (hc : c ∈ s.contexts) :
    s.Issued c.id := by
  refine Decidable.byContradiction fun hno => ?_
  have hcensus := hs.census c.id
  rw [if_neg hno, weigh_among] at hcensus
  have := List.count_pos_iff.2 (List.mem_map_of_mem (f := Context.id) hc)
  omega

/-- No two contexts share an identity. -/
theorem Reachable.eq_of_id (hs : Reachable invoke s) {c d : Context σ} (hc : c ∈ s.contexts)
    (hd : d ∈ s.contexts) (h : c.id = d.id) : c = d := by
  obtain ⟨i, hi⟩ := List.mem_iff_getElem?.1 hc
  obtain ⟨j, hj⟩ := List.mem_iff_getElem?.1 hd
  by_cases hij : i = j
  · subst hij
    exact Option.some.inj (hi.symm.trans hj)
  · have htwo := add_le_total (fun c => among d.id c.stamp) hij hi hj
    have hone := hs.census d.id
    simp only [among, Context.stamp, h, if_true] at htwo
    simp only [weigh, among, Context.stamp] at hone
    split at hone <;> omega

/-! ## Spots -/

/-- How often an identity is in the hands of a caller. -/
theorem count_held_add_underway (s : State σ) (id : ContextId) (i : Nat) :
    (s.idsAt (.held i)).count id + (s.idsAt (.underway i)).count id =
      weigh (among id) (s.placeOf i).contexts := by
  rw [weigh_among, idsAt, idsAt]
  split <;> simp

theorem weigh_placeOf_le (s : State σ) (id : ContextId) (i : Nat) :
    weigh (among id) (s.placeOf i).contexts ≤
      total (fun p => weigh (among id) p.contexts) s.places :=
  placeOf_le_total (f := fun p => weigh (among id) p.contexts) rfl i

theorem weigh_placeOf_add_le (s : State σ) (id : ContextId) {i j : Nat} (hij : i ≠ j) :
    weigh (among id) (s.placeOf i).contexts + weigh (among id) (s.placeOf j).contexts ≤
      total (fun p => weigh (among id) p.contexts) s.places := by
  cases hi : s.places[i]? with
  | none =>
    have hnone : s.placeOf i = .finished .done := by rw [placeOf, hi]; rfl
    rw [hnone]
    have := weigh_placeOf_le s id j
    simpa [Place.contexts] using this
  | some p =>
    cases hj : s.places[j]? with
    | none =>
      have hnone : s.placeOf j = .finished .done := by rw [placeOf, hj]; rfl
      rw [hnone]
      have := weigh_placeOf_le s id i
      simpa [Place.contexts] using this
    | some q =>
      rw [placeOf_eq hi, placeOf_eq hj]
      exact add_le_total (fun p => weigh (among id) p.contexts) hij hi hj

theorem weigh_manager?_le (s : State σ) (id : ContextId) (m : ManagerId) :
    weigh (among id) (contextsUnder (s.manager? m)) ≤
      total (fun o => weigh (among id) (contextsUnder o)) s.managers := by
  by_cases hm : s.Numbered m
  · exact le_total (fun o => weigh (among id) (contextsUnder o)) (List.mem_of_getElem? hm.getElem?)
  · rw [manager?_eq_none hm]
    exact Nat.zero_le _

theorem weigh_manager?_add_le (s : State σ) (id : ContextId) {m k : ManagerId} (hmk : m ≠ k) :
    weigh (among id) (contextsUnder (s.manager? m)) +
        weigh (among id) (contextsUnder (s.manager? k)) ≤
      total (fun o => weigh (among id) (contextsUnder o)) s.managers := by
  by_cases hm : s.Numbered m
  · by_cases hk : s.Numbered k
    · refine add_le_total (fun o => weigh (among id) (contextsUnder o)) (fun h => hmk ?_)
        hm.getElem? hk.getElem?
      have := hm.1
      have := hk.1
      obtain ⟨m⟩ := m
      obtain ⟨k⟩ := k
      exact congrArg ManagerId.mk (by dsimp only at *; omega)
    · rw [manager?_eq_none hk]
      exact weigh_manager?_le s id m
  · rw [manager?_eq_none hm, contextsUnder, weigh_nil, Nat.zero_add]
    exact weigh_manager?_le s id k

/-- **What two spots have is all there, and nothing of it is counted twice.** -/
theorem count_add_count_le (s : State σ) (id : ContextId) {a b : Spot} (hab : a ≠ b) :
    (s.idsAt a).count id + (s.idsAt b).count id ≤
      weigh (among id) s.contexts + s.ended.count id := by
  have hand : ∀ m, (s.idsAt (.atHand m)).count id =
      weigh (among id) (contextsUnder (s.manager? m)) := fun m => (weigh_among id _).symm
  have hended : (s.idsAt .ended).count id = s.ended.count id := rfl
  have hmanager := weigh_manager?_le s id
  have hcaller : ∀ i, (s.idsAt (.held i)).count id + (s.idsAt (.underway i)).count id ≤
      total (fun p => weigh (among id) p.contexts) s.places := by
    intro i
    rw [count_held_add_underway]
    exact weigh_placeOf_le s id i
  have hcallers : ∀ i j, i ≠ j →
      (s.idsAt (.held i)).count id + (s.idsAt (.underway i)).count id +
        ((s.idsAt (.held j)).count id + (s.idsAt (.underway j)).count id) ≤
      total (fun p => weigh (among id) p.contexts) s.places := by
    intro i j hij
    rw [count_held_add_underway, count_held_add_underway]
    exact weigh_placeOf_add_le s id hij
  rw [weigh_contexts]
  cases a with
  | atHand m =>
    have := hmanager m
    cases b with
    | atHand k =>
      have := weigh_manager?_add_le s id (fun h => hab (congrArg _ h) : m ≠ k)
      rw [hand, hand]
      omega
    | held j => have := hcaller j; rw [hand]; omega
    | underway j => have := hcaller j; rw [hand]; omega
    | ended => rw [hand]; omega
  | held i =>
    have := hcaller i
    cases b with
    | atHand k => have := hmanager k; rw [hand]; omega
    | held j => have := hcallers i j fun h => hab (congrArg _ h); omega
    | underway j =>
      by_cases hij : i = j
      · subst hij
        omega
      · have := hcallers i j hij
        omega
    | ended => omega
  | underway i =>
    have := hcaller i
    cases b with
    | atHand k => have := hmanager k; rw [hand]; omega
    | held j =>
      by_cases hij : i = j
      · subst hij
        omega
      · have := hcallers i j hij
        omega
    | underway j => have := hcallers i j fun h => hab (congrArg _ h); omega
    | ended => omega
  | ended =>
    cases b with
    | atHand k => have := hmanager k; rw [hand]; omega
    | held j => have := hcaller j; omega
    | underway j => have := hcaller j; omega
    | ended => exact absurd rfl hab

theorem count_idsAt_le (s : State σ) (id : ContextId) (spot : Spot) :
    (s.idsAt spot).count id ≤ weigh (among id) s.contexts + s.ended.count id := by
  by_cases h : spot = .ended
  · rw [h]
    exact Nat.le_add_left _ _
  · exact Nat.le_trans (Nat.le_add_right _ _) (s.count_add_count_le id h)

/-- An identity that is counted is in one of the spots. -/
theorem exists_idsAt {s : State σ} {id : ContextId}
    (h : 0 < weigh (among id) s.contexts + s.ended.count id) : ∃ spot, id ∈ s.idsAt spot := by
  rw [weigh_contexts] at h
  by_cases hended : 0 < s.ended.count id
  · exact ⟨.ended, List.count_pos_iff.1 hended⟩
  by_cases hplace : 0 < total (fun p => weigh (among id) p.contexts) s.places
  · obtain ⟨i, p, hp, hpos⟩ := exists_of_total_pos hplace
    rw [← placeOf_eq hp, ← count_held_add_underway] at hpos
    by_cases hheld : 0 < (s.idsAt (.held i)).count id
    · exact ⟨.held i, List.count_pos_iff.1 hheld⟩
    · exact ⟨.underway i, List.count_pos_iff.1 (by omega)⟩
  · obtain ⟨n, o, ho, hpos⟩ := exists_of_total_pos (by omega :
      0 < total (fun o => weigh (among id) (contextsUnder o)) s.managers)
    refine ⟨.atHand ⟨n + 1⟩, List.count_pos_iff.1 ?_⟩
    have hm : s.manager? ⟨n + 1⟩ = o := by
      show (s.managers[n]?).join = o
      rw [ho, Option.join_some]
    rw [idsAt, ← weigh_among, hm]
    exact hpos

/-! ## Later states -/

/-- Whatever has ended stays so. -/
theorem ended_of_run (h : s.run invoke moves = some t) (hs : Reachable invoke s)
    (hid : id ∈ s.ended) : id ∈ t.ended := by
  refine (run_induction (P := fun t => Reachable invoke t ∧ id ∈ t.ended) ?_ ⟨hs, hid⟩ h).2
  rintro s t mv ⟨hs, hid⟩ hm
  obtain ⟨made, gone, hex, -⟩ := hs.exchange hm
  refine ⟨hs.move hm, ?_⟩
  rw [hex.ended]
  exact List.mem_append_right _ hid

/-- One for each context with the stamp. -/
def alike (stamp : ContextId × Option ManagerId) (other : ContextId × Option ManagerId) : Nat :=
  if other = stamp then 1 else 0

theorem weigh_alike_pos_iff {stamp : ContextId × Option ManagerId} {contexts : List (Context σ)} :
    0 < weigh (alike stamp) contexts ↔ ∃ c ∈ contexts, c.stamp = stamp := by
  constructor
  · intro h
    obtain ⟨i, c, hc, hpos⟩ := exists_of_total_pos h
    refine ⟨c, List.mem_of_getElem? hc, Decidable.byContradiction fun hne => ?_⟩
    simp [alike, hne] at hpos
  · rintro ⟨c, hc, rfl⟩
    have := le_total (fun d => alike c.stamp d.stamp) hc
    simp only [alike, if_true] at this
    exact this

/-- **A context that is there after moves was there before them with the same owner, or was made in
them.** -/
theorem stamp_of_run (h : s.run invoke moves = some t) (hs : Reachable invoke s) :
    ∀ d ∈ t.contexts, (∃ c ∈ s.contexts, c.stamp = d.stamp) ∨ s.contextsMade < d.id.number := by
  suffices hrun : Reachable invoke t ∧ s.contextsMade ≤ t.contextsMade ∧ ∀ d ∈ t.contexts,
      (∃ c ∈ s.contexts, c.stamp = d.stamp) ∨ s.contextsMade < d.id.number from hrun.2.2
  refine run_induction (P := fun t => Reachable invoke t ∧ s.contextsMade ≤ t.contextsMade ∧
    ∀ d ∈ t.contexts, (∃ c ∈ s.contexts, c.stamp = d.stamp) ∨ s.contextsMade < d.id.number) ?_
    ⟨hs, Nat.le_refl _, fun d hd => .inl ⟨d, hd, rfl⟩⟩ h
  rintro t u mv ⟨ht, hle, ih⟩ hm
  obtain ⟨made, gone, hex, hmade⟩ := ht.exchange hm
  refine ⟨ht.move hm, by rw [hex.contextsMade]; omega, fun d hd => ?_⟩
  have hweigh := hex.contexts (alike d.stamp)
  have hpos := weigh_alike_pos_iff.2 ⟨d, hd, rfl⟩
  by_cases hbefore : 0 < weigh (alike d.stamp) t.contexts
  · obtain ⟨c, hc, hcd⟩ := weigh_alike_pos_iff.1 hbefore
    have hid : c.id = d.id := congrArg Prod.fst hcd
    rw [← hcd, ← hid]
    exact ih c hc
  · obtain ⟨c, hc, hcd⟩ := weigh_alike_pos_iff.1 (by omega : 0 < weigh (alike d.stamp) made)
    have hid : c.id = d.id := congrArg Prod.fst hcd
    obtain rfl | ⟨c', rfl, hnext⟩ := hmade
    · cases hc
    · obtain rfl := List.mem_singleton.1 hc
      refine .inr ?_
      rw [← hid, hnext]
      exact Nat.lt_succ_of_le hle

/-! ## Ownership -/

/-- Where the contexts are, and whose they are. -/
structure Ownership (invoke : Invoke σ) (s : State σ) : Prop where
  /-- An identity that was given out is in one spot only, and there once. -/
  once : ∀ id, s.Issued id →
    ∃ spot, (s.idsAt spot).count id = 1 ∧ ∀ other, other ≠ spot → id ∉ s.idsAt other
  /-- No other identity is anywhere. -/
  issued : ∀ id spot, id ∈ s.idsAt spot → s.Issued id
  distinct : (s.contexts.map Context.id).Nodup
  /-- A context that has ended never reappears. -/
  final : ∀ id moves t, id ∈ s.ended → s.run invoke moves = some t →
    id ∈ t.ended ∧ ∀ spot, spot ≠ .ended → id ∉ t.idsAt spot
  own : ∀ m M, s.manager? m = some M → ∀ c ∈ M.stock.contexts, c.owner = some m
  /-- The owner of a context stays the same whatever happens. -/
  stamped : ∀ moves t, s.run invoke moves = some t →
    ∀ c ∈ s.contexts, ∀ d ∈ t.contexts, d.id = c.id → d.owner = c.owner

/-- Whatever is in a spot is in no other one. -/
theorem Reachable.alone (hs : Reachable invoke s) {a b : Spot} (hab : a ≠ b)
    (ha : id ∈ s.idsAt a) : id ∉ s.idsAt b := by
  intro hb
  have hsum := s.count_add_count_le id hab
  have := List.count_pos_iff.2 ha
  have := List.count_pos_iff.2 hb
  rw [hs.census] at hsum
  split at hsum <;> omega

/-- **Every context is in exactly one place on every run**: with the one manager that is its owner,
with one caller, or at its end. -/
theorem Reachable.ownership (hs : Reachable invoke s) : Ownership invoke s := by
  have hissued : ∀ id spot, id ∈ s.idsAt spot → s.Issued id := by
    intro id spot hid
    refine Decidable.byContradiction fun hno => ?_
    have hcensus := hs.census id
    rw [if_neg hno] at hcensus
    have hpos := List.count_pos_iff.2 hid
    have hle := s.count_idsAt_le id spot
    omega
  refine ⟨fun id hid => ?_, hissued, hs.nodup, fun id moves t hid ht => ?_,
    hs.registered.stocked, fun moves t ht c hc d hd hcd => ?_⟩
  · have hcensus := hs.census id
    rw [if_pos hid] at hcensus
    obtain ⟨spot, hspot⟩ := exists_idsAt (by omega :
      0 < weigh (among id) s.contexts + s.ended.count id)
    have hpos := List.count_pos_iff.2 hspot
    have hle := s.count_idsAt_le id spot
    exact ⟨spot, by omega, fun other hother => hs.alone (Ne.symm hother) hspot⟩
  · have hended := ended_of_run ht hs hid
    exact ⟨hended, fun spot hspot => (hs.run ht).alone (Ne.symm hspot) hended⟩
  · rcases stamp_of_run ht hs d hd with ⟨c', hc', hstamp⟩ | hnew
    · obtain ⟨hid, howner⟩ := Prod.mk.inj hstamp
      rw [← howner, hs.eq_of_id hc' hc (hid.trans hcd)]
    · have hold := (hs.issued_of_mem hc).2
      rw [hcd] at hnew
      exact absurd hold (Nat.not_le.2 hnew)

/-- The hypothesis is satisfiable: of two managers' contexts, one has ended, one is held, one was
just built, and one is at hand. -/
theorem ownership_in_each_spot : ∃ s : State Unit, Reachable inert s ∧
    s.idsAt .ended = [⟨1⟩] ∧ s.idsAt (.held 1) = [⟨2⟩] ∧ s.idsAt (.underway 2) = [⟨3⟩] ∧
      s.idsAt (.atHand ⟨2⟩) = [⟨4⟩] ∧ Ownership inert s := by
  have hs : Reachable inert _ := ⟨[plain],
    [.begin 0 (.establish 0 (.pool ⟨2, 4, 1⟩)), .run 0 0, .run 0 0, .run 0 0,
      .begin 1 (.acquire ⟨1⟩ .hold none), .run 1 0, .handle 1 .leave,
      .begin 1 (.acquire ⟨1⟩ .hold none), .run 1 0,
      .begin 2 (.acquire ⟨1⟩ .hold none), .run 2 0, .run 2 0,
      .begin 3 (.establish 0 .single), .run 3 0, .run 3 0], rfl⟩
  exact ⟨_, hs, rfl, rfl, rfl, rfl, hs.ownership⟩

end State
end Lending
end HookPool
