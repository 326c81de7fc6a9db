/-
# States that are the same but for one caller

`Apart i p q la lb s t` says that nothing tells the states `s` and `t` apart but where the caller `i`
is, `p` in one and `q` in the other, and some events in the middle of the log.  Whatever another caller
does comes to the same in both (`Apart.move_other`), and once both callers are at the same place they
do the same as well (`Apart.move_same`), be it that they begin something new (`Apart.begins`).
-/
import HookPool.Proofs.Lending.OneClose

namespace HookPool
namespace Lending

variable {σ : Type}

/-! ## One caller seen at another place -/

/-- Nobody but a sleeper goes anywhere by being woken. -/
theorem awakened_of_request? {p : Place σ} (h : p.request? = none) (m : ManagerId) :
    State.awakened m p = p := by
  cases p <;> first | rfl | cases h

theorem request?_awakened (m : ManagerId) (p : Place σ) :
    (State.awakened m p).request? = p.request? := by
  cases p with
  | asleep r =>
    unfold State.awakened
    dsimp only
    split <;> rfl
  | _ => rfl

theorem sleepsOn_of_request? {p : Place σ} (h : p.request? = none) (m : ManagerId) :
    p.sleepsOn m = false := by
  cases p <;> first | rfl | cases h

namespace View

/-- Everybody is seen where it is. -/
def home : View σ := fun _ => id

theorem faithful_home : (home : View σ).Faithful :=
  ⟨fun _ _ _ => rfl, fun _ _ _ => rfl⟩

theorem one_id (i : Nat) : (one i id : View σ) = home := by
  funext k
  unfold one home
  split <;> rfl

open Classical in
/-- What is at one place is seen at another one. -/
noncomputable def instead (p q : Place σ) : Place σ → Place σ :=
  fun x => if x = p then q else x

@[simp] theorem instead_self (p q : Place σ) : instead p q p = q :=
  if_pos rfl

/-- Whoever does not open a context may be seen at any place where it does not open one either. -/
theorem faithful_instead {p q : Place σ} (hp : p.request? = none) (hq : q.request? = none)
    (i : Nat) : (one i (instead p q)).Faithful := by
  refine faithful_one (fun m x => ?_) (fun m x => ?_) i
  · by_cases hx : x = p
    · rw [hx, instead_self, sleepsOn_of_request? hp, sleepsOn_of_request? hq]
    · rw [instead, if_neg hx]
  · by_cases hx : x = p
    · rw [hx, instead_self, awakened_of_request? hp, awakened_of_request? hq, instead_self]
    · have hne : State.awakened m x ≠ p := by
        intro h
        have hxr : x.request? = none := by rw [← request?_awakened m, h, hp]
        rw [awakened_of_request? hxr] at h
        exact hx h
      rw [instead, instead, if_neg hx, if_neg hne]

end View

namespace State

/-- The states are the same but for the caller `i`, which is at `p` in `s` and at `q` in `t`, and but
for events in the middle of the log: `la` in `s` and `lb` in `t`. -/
structure Apart (i : Nat) (p q : Place σ) (la lb : List Event) (s t : State σ) : Prop where
  here : s.placeOf i = p
  there : t.placeOf i = q
  managers : t.managers = s.managers
  length : t.places.length = s.places.length
  others : ∀ k, k ≠ i → t.places[k]? = s.places[k]?
  factories : t.factories = s.factories
  contextsMade : t.contextsMade = s.contextsMade
  clock : t.clock = s.clock
  armed : t.armed = s.armed
  printed : t.printed = s.printed
  events : ∃ later before, s.events = later ++ la ++ before ∧ t.events = later ++ lb ++ before

theorem placeOf_wakeOne {s : State σ} {i : Nat} (h : (s.placeOf i).request? = none)
    (m : ManagerId) (chosen : Nat) : (s.wakeOne m chosen).placeOf i = s.placeOf i := by
  unfold wakeOne
  dsimp only
  split
  · rename_i j _
    rw [placeOf, List.getElem?_modify]
    cases hp : s.places[i]? with
    | none => rw [placeOf, hp]; rfl
    | some p =>
      rw [placeOf_eq hp] at h ⊢
      change (if j = i then awakened m p else p) = p
      rw [awakened_of_request? h, ite_self]
  · rfl

theorem placeOf_closeOwn {s : State σ} {i chosen : Nat} {m : ManagerId} {M : Manager σ}
    {c : Context σ} (h : (s.placeOf i).request? = none) :
    (s.closeOwn m c M chosen).1.placeOf i = s.placeOf i := by
  unfold State.closeOwn
  dsimp only
  split
  · rfl
  split
  · exact placeOf_wakeOne (by exact h) m chosen
  · split
    · exact placeOf_wakeOne (s := s.setManager m _) h m chosen
    · rfl

namespace Apart

variable {invoke : Invoke σ} {s t s' : State σ} {mv : Move σ} {i : Nat} {p q : Place σ}
  {la lb before : List Event} {f g : Place σ → Place σ} {m : ManagerId} {M : Manager σ}
  {c : Context σ} {o o' : Outcome} {r r' : Request} {chosen : Nat}

theorem refl (s : State σ) (i : Nat) : Apart i (s.placeOf i) (s.placeOf i) [] [] s s :=
  ⟨rfl, rfl, rfl, rfl, fun _ _ => rfl, rfl, rfl, rfl, rfl, rfl, s.events, [], by simp, by simp⟩

/-! ## Views of one state -/

theorem move_home (invoke : Invoke σ) (mv : Move σ) (es : List Event) (s : State σ) :
    (s.viewed View.home es).move invoke mv =
      (s.move invoke mv).map (State.viewed View.home es) :=
  move_viewed View.faithful_home invoke (fun _ _ => rfl) fun _ _ _ => inUse_viewed fun _ _ _ => rfl

theorem mapIdx_home (places : List (Place σ)) : places.mapIdx View.home = places := by
  apply List.ext_getElem?
  intro k
  rw [List.getElem?_mapIdx, View.home, Option.map_id, id]

theorem places_viewed (h : Apart i p q la lb s t) (hi : i < s.places.length) (hf : f p = q) :
    s.places.mapIdx (View.one i f) = t.places := by
  apply List.ext_getElem?
  intro k
  rw [List.getElem?_mapIdx]
  by_cases hk : k = i
  · subst hk
    rw [View.one_self, place?_of_placeOf h.here hi,
      place?_of_placeOf h.there (by rw [h.length]; exact hi), Option.map_some, hf]
  · rw [View.one_other hk, Option.map_id, id, h.others k hk]

/-- **States that are apart are views of one state.** -/
theorem viewed (h : Apart i p q la lb s t) (hi : i < s.places.length) (hf : f p = q) :
    ∃ (base : State σ) (before : List Event), base.placeOf i = p ∧ base.places = s.places ∧
      s = base.viewed View.home (la ++ before) ∧ t = base.viewed (View.one i f) (lb ++ before) := by
  obtain ⟨later, before, hs, ht⟩ := h.events
  refine ⟨{ s with events := later }, before, h.here, rfl, ?_, ?_⟩
  · rw [State.viewed, mapIdx_home, ← List.append_assoc, ← hs]
  · rw [State.viewed, h.places_viewed hi hf, ← List.append_assoc, ← ht, ← h.managers,
      ← h.factories, ← h.contextsMade, ← h.clock, ← h.armed, ← h.printed]

theorem of_viewed (base : State σ) (hi : i < base.places.length) (hp : base.placeOf i = p)
    (hf : f p = q) : Apart i p q la lb (base.viewed View.home (la ++ before))
      (base.viewed (View.one i f) (lb ++ before)) where
  here := by
    rw [placeOf, State.viewed, mapIdx_home]
    exact hp
  there := by
    rw [placeOf, place?_viewed, place?_of_placeOf hp hi, View.one_self, ← hf]
    rfl
  managers := rfl
  length := by rw [length_places_viewed, length_places_viewed]
  others k hk := by
    rw [place?_viewed, place?_viewed, View.one_other hk]
    rfl
  factories := rfl
  contextsMade := rfl
  clock := rfl
  armed := rfl
  printed := rfl
  events := ⟨base.events, before, (List.append_assoc ..).symm, (List.append_assoc ..).symm⟩

/-! ## Moves -/

theorem inUse_of_drop {k : Nat} (h : s.move invoke (.begin k (.dropManager m)) = some s') :
    s.inUse m = false := by
  simp only [State.move, begin?] at h
  split at h
  · cases hu : s.inUse m with
    | false => rfl
    | true =>
      rw [hu, if_pos rfl] at h
      cases h
  · cases h

/-- **What a move comes to in both states**, if it commutes with seeing the caller elsewhere: with `f`
before the move, and with `g` after it. -/
theorem move (h : Apart i p q la lb s t) (hi : i < s.places.length) (hf : f p = q)
    (hm : s.move invoke mv = some s')
    (hforth : ∀ (base base' : State σ) (es : List Event), base.places[i]? = some p →
      base.move invoke mv = some base' → (base.viewed (View.one i f) es).move invoke mv =
        some (base'.viewed (View.one i g) es)) :
    ∃ t', t.move invoke mv = some t' ∧
      Apart i (s'.placeOf i) (g (s'.placeOf i)) la lb s' t' := by
  obtain ⟨base, before, hp, hplaces, rfl, rfl⟩ := h.viewed hi hf
  have hi : i < base.places.length := by rw [hplaces]; exact hi
  rw [move_home] at hm
  obtain ⟨base', hbase, rfl⟩ := Option.map_eq_some_iff.1 hm
  have hi' : i < base'.places.length := Nat.lt_of_lt_of_le hi (length_places_le hbase)
  have hapart : Apart i (base'.placeOf i) (g (base'.placeOf i)) la lb
      (base'.viewed View.home (la ++ before)) (base'.viewed (View.one i g) (lb ++ before)) :=
    of_viewed base' hi' rfl rfl
  rw [hapart.here]
  exact ⟨_, hforth base base' _ (place?_of_placeOf hp hi) hbase, hapart⟩

/-- **Whatever another caller does comes to the same in both states**, and wakes the caller in both or
in neither. -/
theorem move_other (h : Apart i p q la lb s t) (hi : i < s.places.length)
    (hv : (View.one i f).Faithful) (hf : f p = q)
    (hu : ∀ m, p.uses m = false → q.uses m = false) (hm : s.move invoke mv = some s')
    (hmv : mv.isTurnOf i = false) :
    ∃ t', t.move invoke mv = some t' ∧
      Apart i (s'.placeOf i) (f (s'.placeOf i)) la lb s' t' := by
  refine h.move hi hf hm fun base base' es hp hbase => ?_
  rw [move_viewed hv invoke (fun k hk => View.one_other ?_ f) fun k m hdrop => ?_, hbase]
  · rfl
  · rintro rfl
    rw [hmv] at hk
    cases hk
  · -- a manager that is dropped is not needed at the one place, and so not at the other
    subst hdrop
    have hunused := inUse_of_drop hbase
    refine inUse_viewed fun j x hx => ?_
    by_cases hj : j = i
    · subst hj
      obtain rfl := Option.some.inj (hp.symm.trans hx)
      have hno : p.uses m = false :=
        Bool.eq_false_iff.2 (List.any_eq_false.1 hunused p (List.mem_of_getElem? hx))
      rw [View.one_self, hf, hno, hu m hno]
    · rw [View.one_other hj, id]

/-- **Once the caller is at the same place in both states, all moves come to the same.** -/
theorem move_same (h : Apart i p p la lb s t) (hi : i < s.places.length)
    (hm : s.move invoke mv = some s') :
    ∃ t', t.move invoke mv = some t' ∧ Apart i (s'.placeOf i) (s'.placeOf i) la lb s' t' := by
  refine h.move (f := id) (g := id) hi rfl hm fun base base' es _ hbase => ?_
  rw [View.one_id, move_home, hbase]
  rfl

/-- **An opener takes its steps alike in both states**, if it opens the context for another purpose in
one of them. -/
theorem opens (h : Apart i p q la lb s t) (hi : i < s.places.length)
    (hv : (View.one i f).Faithful) (hf : f p = q) (ho : (View.one i f).Opens i r r')
    (hr : p.request? = some r) (hm : s.move invoke (.run i chosen) = some s') :
    ∃ t', t.move invoke (.run i chosen) = some t' ∧
      Apart i (s'.placeOf i) (f (s'.placeOf i)) la lb s' t' := by
  refine h.move hi hf hm fun base base' es hp hbase => ?_
  have hforth : (base.viewed (View.one i f) es).move invoke (.run i chosen) =
      (base.move invoke (.run i chosen)).map (State.viewed (View.one i f) es) :=
    step?_viewed_opening hv invoke ho hp hr chosen
  rw [hforth, hbase]
  rfl

/-- **Whoever begins something new does the same in both states**, whatever has come of what it did
before. -/
theorem begins (h : Apart i (.finished o) (.finished o') la lb s t) (hi : i < s.places.length)
    {operation : Operation} (hm : s.move invoke (.begin i operation) = some s') :
    ∃ t', t.move invoke (.begin i operation) = some t' ∧
      Apart i (s'.placeOf i) (s'.placeOf i) la lb s' t' := by
  have hseen : View.instead (.finished o) (.finished o') (.finished o) =
      (.finished o' : Place σ) := View.instead_self _ _
  refine h.move (g := id) hi hseen hm fun base base' es hp hbase => ?_
  rw [View.one_id]
  have hforth : (base.viewed (View.one i (View.instead (.finished o) (.finished o'))) es).move invoke
      (.begin i operation) =
        (base.move invoke (.begin i operation)).map (State.viewed View.home es) := by
    refine begin?_viewed ⟨rfl, fun k hk => View.one_other hk _⟩ ?_ operation fun m _ =>
      inUse_viewed fun j x hx => ?_
    · rw [isFree, isFree, place?_viewed, hp, View.one_self, Option.map_some, hseen]
    · by_cases hj : j = i
      · subst hj
        obtain rfl := Option.some.inj (hx.symm.trans hp)
        rw [View.one_self, hseen]
        rfl
      · rw [View.one_other hj, id]
  rw [hforth, hbase]
  rfl

/-! ## What the caller does itself -/

/-- The caller is put elsewhere in both states. -/
theorem put (h : Apart i p q la lb s t) (hi : i ≤ s.places.length) (p' q' : Place σ) :
    Apart i p' q' la lb (s.put i p') (t.put i q') where
  here := placeOf_put hi p'
  there := placeOf_put (by rw [h.length]; exact hi) q'
  managers := by rw [managers_put, managers_put, h.managers]
  length := by
    rw [places_put, places_put, putAt, putAt, h.length]
    split <;> simp [h.length]
  others k hk := by
    rw [places_put, places_put, getElem?_putAt (by rw [h.length]; exact hi), getElem?_putAt hi,
      if_neg hk, if_neg hk, h.others k hk]
  factories := by rw [factories_put, factories_put, h.factories]
  contextsMade := by rw [contextsMade_put, contextsMade_put, h.contextsMade]
  clock := by rw [clock_put, clock_put, h.clock]
  armed := by rw [armed_put, armed_put, h.armed]
  printed := by rw [put_eq, put_eq, h.printed]
  events := by
    rw [put_eq, put_eq]
    exact h.events

/-- Different events are recorded in both states. -/
theorem recordAll (h : Apart i p q [] [] s t) (la lb : List Event) :
    Apart i p q la lb (s.recordAll la) (t.recordAll lb) := by
  obtain ⟨later, before, hs, ht⟩ := h.events
  exact { h with
    events := ⟨[], later ++ before, by simp [State.recordAll, hs], by simp [State.recordAll, ht]⟩ }

/-- The manager of the caller takes a context back in both states. -/
theorem closeOwn (h : Apart i p q [] [] s t) (hi : i < s.places.length) (hp : p.request? = none)
    (hq : q.request? = none) (m : ManagerId) (c : Context σ) (M : Manager σ) (chosen : Nat) :
    (t.closeOwn m c M chosen).2 = (s.closeOwn m c M chosen).2 ∧
      Apart i p q [] [] (s.closeOwn m c M chosen).1 (t.closeOwn m c M chosen).1 := by
  obtain ⟨base, before, hbase, hplaces, rfl, rfl⟩ := h.viewed hi (View.instead_self p q)
  rw [closeOwn_viewed View.faithful_home, closeOwn_viewed (View.faithful_instead hp hq i)]
  have hthere : (base.closeOwn m c M chosen).1.placeOf i = p := by
    rw [placeOf_closeOwn (by rw [hbase]; exact hp), hbase]
  exact ⟨rfl, of_viewed _ (by rw [length_closeOwn, hplaces]; exact hi) hthere
    (View.instead_self p q)⟩

/-- A context is discarded in both states. -/
theorem discarded (h : Apart i p q [] [] s t) (hi : i < s.places.length) (m : ManagerId)
    (M : Manager σ) (c : Context σ) :
    Apart i p q [] [] (s.discarded m M c) (t.discarded m M c) := by
  obtain ⟨base, before, hbase, hplaces, rfl, rfl⟩ := h.viewed (f := fun _ => q) hi rfl
  rw [discarded_viewed, discarded_viewed]
  refine of_viewed _ ?_ ?_ rfl
  · rw [places_discarded, hplaces]
    exact hi
  · rw [placeOf, places_discarded]
    exact hbase

end Apart
end State
end Lending
end HookPool
