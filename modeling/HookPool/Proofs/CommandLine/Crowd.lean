/-
# Every stress run comes to its end, and accounts for every call

A crowd of workers calls a hook through a manager that has just been made, in whatever order the
workers take their steps, whatever the hook replies, and whichever contexts cannot be built:

* as long as a call is left, some worker can take a step (`Sound.exists_step`), and there are no more
  than ten steps for each call, and one for each time that a sleeper wakes up without any cause
  (`Sound.run`), so that all workers are through in the end;
* each call is counted once, as each worker owes one count for each call that it has not begun or
  not counted (`Worker.due`);
* then nothing is lent, and the shutdown goes well, so that the run ends with an error exactly if a
  call has failed.

`Sound` is what every act keeps (`Sound.act`); `Doing` says once what an act can do.
-/
import HookPool.CommandLine.Stress
import HookPool.Proofs.Lending.Alone
import HookPool.Proofs.Lending.Calls

namespace HookPool
namespace CommandLine

open Lending

variable {σ : Type}

/-! ## What workers owe -/

/-- How many counts the worker owes. -/
def Worker.due (w : Worker) : Nat := w.left + if w.busy then 1 else 0

/-- How many steps the worker has ahead outside of its call. -/
def Worker.ahead (w : Worker) : Nat := Crowd.stepsPerCall * w.left + if w.busy then 1 else 0

def Act.isStep : Act → Bool
  | .step _ _ => true
  | .rouse _ => false

namespace Crowd

variable {invoke : Invoke σ} {c d : Crowd σ} {a : Act} {acts : List Act} {i chosen : Nat}
  {threads calls : Nat} {M : Manager σ} {w : Worker} {s : Lending.State σ} {o : Outcome}

/-- How many steps all workers have ahead, if no sleeper wakes up without any cause. -/
def ahead (c : Crowd σ) : Nat :=
  total Worker.ahead c.workers + total Place.ahead c.state.places

/-- All that an act can do. -/
inductive Doing (invoke : Invoke σ) (c : Crowd σ) : Act → Crowd σ → Prop where
  | begins {i chosen left : Nat} {s : Lending.State σ}
    (hw : c.workers[i]? = some ⟨left + 1, false⟩)
    (hm : c.state.move invoke
      (.begin (c.first + i) (.acquire c.manager (.call c.hook c.arguments) none)) = some s) :
    Doing invoke c (.step i chosen)
      { c with state := s, workers := c.workers.set i ⟨left, true⟩ }
  | counts {i chosen left : Nat} {o : Outcome} (hw : c.workers[i]? = some ⟨left, true⟩)
    (ho : c.state.outcome? (c.first + i) = some o) :
    Doing invoke c (.step i chosen) (c.count i left o)
  | goesOn {i chosen left : Nat} {s : Lending.State σ} (hw : c.workers[i]? = some ⟨left, true⟩)
    (ho : c.state.outcome? (c.first + i) = none)
    (hm : c.state.move invoke (.run (c.first + i) chosen) = some s) :
    Doing invoke c (.step i chosen) { c with state := s }
  | awakes {i : Nat} {s : Lending.State σ}
    (hm : c.state.move invoke (.rouse (c.first + i)) = some s) :
    Doing invoke c (.rouse i) { c with state := s }

theorem doing_of_act? (h : c.act? invoke a = some d) : Doing invoke c a d := by
  cases a with
  | rouse i =>
    obtain ⟨s, hs, rfl⟩ := Option.map_eq_some_iff.1 h
    exact .awakes hs
  | step i chosen =>
    simp only [act?, step?] at h
    split at h
    · cases h
    · cases h
    · obtain ⟨s, hs, rfl⟩ := Option.map_eq_some_iff.1 h
      exact .begins ‹_› hs
    · split at h
      · obtain rfl := Option.some.inj h
        exact .counts ‹_› ‹_›
      · obtain ⟨s, hs, rfl⟩ := Option.map_eq_some_iff.1 h
        exact .goesOn ‹_› ‹_› hs

theorem lt_of_step? (h : c.step? invoke i chosen = some d) : i < c.workers.length := by
  refine Nat.lt_of_not_le fun hle => ?_
  simp [step?, List.getElem?_eq_none_iff.2 hle] at h

/-! ## What is known all the way -/

/-- What is known of a crowd of `threads` workers that make `calls` calls each. -/
structure Sound (threads calls : Nat) (c : Crowd σ) (M : Manager σ) : Prop where
  serves : c.state.Serves c.manager M
  workers : c.workers.length = threads
  places : c.state.places.length = c.first + threads
  /-- Somebody has made the manager, and waits. -/
  first : 0 < c.first
  waiting : ∀ j, j < c.first → ∃ o, c.state.placeOf j = .finished o
  /-- Whoever has no call to count is in none. -/
  idle : ∀ i left, c.workers[i]? = some ⟨left, false⟩ →
    ∃ o, c.state.placeOf (c.first + i) = .finished o
  counted : c.tally.total + total Worker.due c.workers = threads * calls

namespace Sound

theorem lt_places (h : Sound threads calls c M) (hw : c.workers[i]? = some w) :
    c.first + i < c.state.places.length := by
  have hi := (List.getElem?_eq_some_iff.1 hw).1
  rw [h.workers] at hi
  rw [h.places]
  omega

/-- A move within a call keeps what is known. -/
theorem move (h : Sound threads calls c M) {mv : Move σ} {k : Nat}
    (hm : c.state.move invoke mv = some s) (hmv : mv.IsOfCall c.manager)
    (hk : mv.isTurnOf k = true) (hlt : k < c.state.places.length)
    (hb : ∀ j operation, mv ≠ .begin j operation) :
    ∃ M', Sound threads calls { c with state := s } M' := by
  obtain ⟨M', hs⟩ := h.serves.move hm hmv
  have hstays : ∀ {j : Nat}, (∃ o, c.state.placeOf j = .finished o) →
      ∃ o, s.placeOf j = .finished o := by
    rintro j ⟨o, ho⟩
    exact ⟨o, State.finished_of_move hm (hb j) ho⟩
  exact ⟨M', hs, h.workers, (State.length_places_eq hm hk hlt).trans h.places, h.first,
    fun j hj => hstays (h.waiting j hj), fun j left hj => hstays (h.idle j left hj), h.counted⟩

/-- **A worker that begins a call** has one less to begin, and one to count. -/
theorem begins (h : Sound threads calls c M) {left : Nat}
    (hw : c.workers[i]? = some ⟨left + 1, false⟩) (hm : c.state.move invoke
      (.begin (c.first + i) (.acquire c.manager (.call c.hook c.arguments) none)) = some s) :
    ∃ M', Sound threads calls { c with state := s, workers := c.workers.set i ⟨left, true⟩ } M' := by
  obtain ⟨M', hs⟩ := h.serves.move hm rfl
  have hlen := State.length_places_eq hm (decide_eq_true rfl) (h.lt_places hw)
  have hstays : ∀ {j : Nat}, j ≠ c.first + i → (∃ o, c.state.placeOf j = .finished o) →
      ∃ o, s.placeOf j = .finished o := by
    rintro j hj ⟨o, ho⟩
    refine ⟨o, State.finished_of_move hm ?_ ho⟩
    rintro operation he
    injection he with he
    exact hj he.symm
  refine ⟨M', hs, (List.length_set ..).trans h.workers, hlen.trans h.places, h.first,
    fun j (hj : j < c.first) => hstays (by omega) (h.waiting j hj), ?_, ?_⟩
  · intro j left' hj
    have hij : i ≠ j := by
      rintro rfl
      rw [List.getElem?_set_self (List.getElem?_eq_some_iff.1 hw).1] at hj
      cases hj
    rw [List.getElem?_set_ne hij] at hj
    have hne : c.first + j ≠ c.first + i := by omega
    exact hstays hne (h.idle j left' hj)
  · have hdue := total_set Worker.due hw ⟨left, true⟩
    have hsum := h.counted
    simp only [Worker.due, if_true, Bool.false_eq_true, if_false] at hdue
    dsimp only
    omega

/-- **A worker that counts what its call came to** owes one count less. -/
theorem counts (h : Sound threads calls c M) {left : Nat} (hw : c.workers[i]? = some ⟨left, true⟩)
    (ho : c.state.outcome? (c.first + i) = some o) :
    Sound threads calls (c.count i left o) M := by
  have hplace : ∀ j, (c.count i left o).state.placeOf j = c.state.placeOf j := by
    intro j
    unfold count
    cases o <;> rfl
  refine ⟨?_, (List.length_set ..).trans h.workers, ?_, h.first, fun j hj => ?_, ?_, ?_⟩
  · unfold count
    cases o with
    | failed e => exact h.serves.record _
    | _ => exact h.serves
  · unfold count
    cases o <;> exact h.places
  · rw [hplace]
    exact h.waiting j hj
  · intro j left' hj
    rw [hplace]
    by_cases hij : i = j
    · subst hij
      exact ⟨o, State.placeOf_of_outcome? ho⟩
    · exact h.idle j left' ((List.getElem?_set_ne hij).symm.trans hj)
  · have hdue := total_set Worker.due hw ⟨left, false⟩
    have hsum := h.counted
    simp only [Worker.due, if_true, Bool.false_eq_true, if_false] at hdue
    simp only [count, Tally.total_count]
    omega

/-- **Every act keeps what is known.** -/
theorem act (h : Sound threads calls c M) (ha : c.act? invoke a = some d) :
    ∃ M', Sound threads calls d M' := by
  cases doing_of_act? ha with
  | begins hw hm => exact h.begins hw hm
  | counts hw ho => exact ⟨M, h.counts hw ho⟩
  | goesOn hw ho hm => exact h.move hm trivial (decide_eq_true rfl) (h.lt_places hw) (by simp)
  | @awakes i s hm =>
    refine h.move hm trivial (decide_eq_true rfl) ?_ (by simp)
    refine Nat.lt_of_not_le fun hle => ?_
    have hnone := List.getElem?_eq_none_iff.2 hle
    simp [State.move, State.rouse?, hnone] at hm

/-! ## The run comes to its end -/

/-- **Each step leaves less ahead**; a sleeper that wakes up without any cause has one step more. -/
theorem ahead_act (h : Sound threads calls c M) (ha : c.act? invoke a = some d) :
    d.ahead + (if a.isStep then 1 else 0) ≤ c.ahead + if a.isStep then 0 else 1 := by
  unfold ahead
  cases doing_of_act? ha with
  | @begins i chosen left s hw hm =>
    have hw := total_set Worker.ahead hw ⟨left, true⟩
    have hs := h.serves.ahead_begin hm
    simp only [Worker.ahead, stepsPerCall, if_true, Bool.false_eq_true, if_false] at hw
    simp only [Act.isStep, if_true]
    omega
  | @counts i chosen left o hw ho =>
    have hw := total_set Worker.ahead hw ⟨left, false⟩
    have hs : (c.count i left o).state.places = c.state.places := by
      unfold count
      cases o <;> rfl
    simp only [Worker.ahead, if_true, Bool.false_eq_true, if_false] at hw
    rw [hs]
    simp only [count, Act.isStep, if_true]
    omega
  | goesOn hw ho hm =>
    have hs := h.serves.ahead_run hm
    simp only [Act.isStep, if_true]
    omega
  | awakes hm =>
    have hs := h.serves.ahead_rouse hm
    simp only [Act.isStep, Bool.false_eq_true, if_false]
    omega

/-- **On a run, each step is one that was ahead**, but for those of sleepers that have woken up
without any cause. -/
theorem run (h : Sound threads calls c M) (hr : c.run invoke acts = some d) :
    (∃ M', Sound threads calls d M') ∧
      d.ahead + acts.countP Act.isStep ≤ c.ahead + acts.countP fun a => !a.isStep := by
  induction acts generalizing c M with
  | nil =>
    obtain rfl := Option.some.inj hr
    exact ⟨⟨M, h⟩, Nat.le_refl _⟩
  | cons a acts ih =>
    obtain ⟨c', ha, hr⟩ := Option.bind_eq_some_iff.1 hr
    obtain ⟨M', h'⟩ := h.act ha
    obtain ⟨hd, hle⟩ := ih h' hr
    have hact := h.ahead_act ha
    refine ⟨hd, ?_⟩
    rw [List.countP_cons, List.countP_cons]
    cases hs : a.isStep with
    | true =>
      simp only [hs, if_true, Bool.not_true, Bool.false_eq_true, if_false] at hact ⊢
      omega
    | false =>
      simp only [hs, if_true, Bool.not_false, Bool.false_eq_true, if_false] at hact ⊢
      omega

/-- A worker that has a call to begin can begin it. -/
theorem exists_begin (h : Sound threads calls c M) {left : Nat}
    (hw : c.workers[i]? = some ⟨left + 1, false⟩) (chosen : Nat) :
    ∃ d, c.step? invoke i chosen = some d := by
  obtain ⟨o, ho⟩ := h.idle i (left + 1) hw
  have hp := State.place?_of_placeOf ho (h.lt_places hw)
  have hfree : c.state.isFree (c.first + i) = true := by rw [State.isFree, hp]
  simp only [step?, hw, State.begin?, hfree, if_true, State.withManager, h.serves.there,
    Option.map_some]
  exact ⟨_, rfl⟩

/-- A worker that is in a call and ready can take a step. -/
theorem exists_goesOn (h : Sound threads calls c M) {p : Place σ}
    (hp : c.state.places[c.first + i]? = some p) (hready : p.isReady = true) (chosen : Nat) :
    ∃ d, c.step? invoke i chosen = some d := by
  have hbusy : ∀ o, p ≠ .finished o := by
    rintro o rfl
    cases hready
  have hi : i < c.workers.length := by
    have hlt := (List.getElem?_eq_some_iff.1 hp).1
    rw [h.places] at hlt
    rw [h.workers]
    omega
  obtain ⟨⟨left, busy⟩, hw⟩ : ∃ w, c.workers[i]? = some w := ⟨_, List.getElem?_eq_getElem hi⟩
  cases busy with
  | false =>
    obtain ⟨o, ho⟩ := h.idle i left hw
    exact absurd ((State.placeOf_eq hp).symm.trans ho) (hbusy o)
  | true =>
    obtain ⟨t, ht⟩ : ∃ t, c.state.step? invoke (c.first + i) chosen = some t :=
      h.serves.possible hp hready chosen
    have hnone : c.state.outcome? (c.first + i) = none :=
      State.outcome?_eq_none (State.placeOf_eq hp) hbusy
    simp only [step?, hw, hnone, ht, Option.map_some]
    exact ⟨_, rfl⟩

/-- **As long as a call is left, some worker can take a step.** -/
theorem exists_step (h : Sound threads calls c M) (hj : c.isJoined = false) :
    ∃ i, ∀ chosen, ∃ d, c.step? invoke i chosen = some d := by
  obtain ⟨w, hw, hleft⟩ := List.all_eq_false.1 hj
  obtain ⟨i, hi⟩ := List.mem_iff_getElem?.1 hw
  obtain ⟨left, busy⟩ := w
  cases busy with
  | false =>
    cases left with
    | zero => exact absurd rfl hleft
    | succ left => exact ⟨i, h.exists_begin hi⟩
  | true =>
    cases ho : c.state.outcome? (c.first + i) with
    | some o => exact ⟨i, fun chosen => ⟨_, by simp only [step?, hi, ho]; rfl⟩⟩
    | none =>
      -- somebody in a call is ready, and all those who are none of the workers have finished
      have hlt := h.lt_places hi
      obtain ⟨p, hp⟩ : ∃ p, c.state.places[c.first + i]? = some p :=
        ⟨_, List.getElem?_eq_getElem hlt⟩
      have hn : ∀ o, p ≠ .finished o := by
        rintro o rfl
        rw [State.outcome?, hp] at ho
        cases ho
      obtain ⟨q, hq, hready⟩ := h.serves.exists_ready (List.mem_of_getElem? hp) hn
      obtain ⟨j, hj⟩ := List.mem_iff_getElem?.1 hq
      have hle : c.first ≤ j := by
        refine Nat.le_of_not_lt fun hlt => ?_
        obtain ⟨o, ho⟩ := h.waiting j hlt
        rw [State.placeOf_eq hj] at ho
        rw [ho] at hready
        cases hready
      obtain ⟨k, rfl⟩ := Nat.exists_eq_add_of_le hle
      exact ⟨k, h.exists_goesOn hj hready⟩

/-! ## When all are through -/

theorem through (hj : c.isJoined = true) (hw : w ∈ c.workers) : w = ⟨0, false⟩ := by
  obtain ⟨left, busy⟩ := w
  have hall := List.all_eq_true.1 hj ⟨left, busy⟩ hw
  simp only [Bool.and_eq_true, decide_eq_true_eq, Bool.not_eq_true'] at hall
  rw [hall.1, hall.2]

/-- **When all workers are through all calls are counted.** -/
theorem total_eq (h : Sound threads calls c M) (hj : c.isJoined = true) :
    c.tally.total = threads * calls := by
  have hdue : total Worker.due c.workers = 0 := by
    refine total_eq_zero fun w hw => ?_
    rw [through hj hw]
    rfl
  have hsum := h.counted
  omega

/-- When all workers are through all callers have finished. -/
theorem all_finished (h : Sound threads calls c M) (hj : c.isJoined = true) (j : Nat) :
    ∃ o, c.state.placeOf j = .finished o := by
  by_cases hlt : j < c.first
  · exact h.waiting j hlt
  obtain ⟨k, rfl⟩ := Nat.exists_eq_add_of_le (Nat.le_of_not_lt hlt)
  cases hw : c.workers[k]? with
  | some w => exact h.idle k 0 (by rw [hw, through hj (List.mem_of_getElem? hw)])
  | none =>
    -- there is no such caller
    have hle := List.getElem?_eq_none_iff.1 hw
    rw [h.workers] at hle
    have hnone : c.state.places[c.first + k]? = none :=
      List.getElem?_eq_none_iff.2 (by rw [h.places]; omega)
    exact ⟨.done, by rw [State.placeOf, hnone, Option.getD_none]⟩

/-- **When all workers are through nothing is lent**, and what was made is destroyed or at hand. -/
theorem at_rest (h : Sound threads calls c M) (hj : c.isJoined = true) :
    M.stock.active = 0 ∧ M.created = M.destroyed + M.stock.contexts.length := by
  refine h.serves.at_rest fun p hp => ?_
  obtain ⟨j, hj'⟩ := List.mem_iff_getElem?.1 hp
  rw [← State.placeOf_eq hj']
  exact h.all_finished hj j

/-- What the crowd tells of its manager. -/
theorem stats_eq (h : Sound threads calls c M) : c.stats = M.stats := by
  rw [stats, h.serves.there, Option.map_some, Option.getD_some]

/-- **When all workers are through the shutdown goes well.** -/
theorem shutDown_eq (h : Sound threads calls c M) (hj : c.isJoined = true) :
    (c.shutDown invoke).outcome? 0 = some .done := by
  obtain ⟨o, ho⟩ := h.waiting 0 h.first
  have hlt : 0 < c.state.places.length := by
    rw [h.places]
    exact Nat.lt_add_right threads h.first
  obtain ⟨signalled, -, -, hbal⟩ := h.serves.books
  exact State.start_shutDown (fun j _ => h.all_finished hj j) h.serves.tame.unarmed
    (State.place?_of_placeOf ho hlt) h.serves.there hbal.sound (h.at_rest hj).1

/-- If no step is ahead, or none is possible, all workers are through. -/
theorem joined (h : Sound threads calls c M) (hd : c.ahead = 0 ∨ c.stepFirst? invoke = none) :
    c.isJoined = true := by
  refine Bool.of_not_eq_false fun hj => ?_
  obtain ⟨i, hi⟩ : ∃ i, ∀ chosen, ∃ d, c.step? invoke i chosen = some d := h.exists_step hj
  obtain ⟨d, hstep⟩ := hi c.state.places.length
  rcases hd with hzero | hnone
  · have hact := h.ahead_act (a := .step i c.state.places.length) hstep
    simp only [Act.isStep, if_true] at hact
    omega
  · rw [stepFirst?, List.findSome?_eq_none_iff] at hnone
    rw [hnone i (List.mem_range.2 (lt_of_step? hstep))] at hstep
    cases hstep

/-- **The schedule brings all workers to their end**, if it may take as many steps as are ahead. -/
theorem settleWithin (h : Sound threads calls c M) {n : Nat} (hn : c.ahead ≤ n) :
    ∃ acts, c.run invoke acts = some (c.settleWithin invoke n) ∧
      (c.settleWithin invoke n).isJoined = true := by
  induction n generalizing c M with
  | zero =>
    have hzero : c.ahead = 0 ∨ c.stepFirst? invoke = none := .inl (Nat.le_zero.1 hn)
    exact ⟨[], rfl, h.joined hzero⟩
  | succ n ih =>
    rw [Crowd.settleWithin]
    cases hfirst : c.stepFirst? invoke with
    | none => exact ⟨[], rfl, h.joined (.inr hfirst)⟩
    | some d =>
      obtain ⟨i, -, hstep⟩ := List.exists_of_findSome?_eq_some hfirst
      have hact : c.act? invoke (.step i c.state.places.length) = some d := hstep
      obtain ⟨M', hd⟩ := h.act hact
      have hless := h.ahead_act hact
      simp only [Act.isStep, if_true] at hless
      obtain ⟨acts, hrun, hj⟩ := ih hd (by omega)
      exact ⟨_ :: acts, by rw [Crowd.run, hact, Option.bind_some, hrun], hj⟩

end Sound

/-! ## Stress runs -/

theorem total_replicate {α : Type} (f : α → Nat) (n : Nat) (x : α) :
    total f (List.replicate n x) = n * f x := by
  induction n with
  | zero => rw [Nat.zero_mul]; rfl
  | succ n ih => rw [List.replicate_succ, total_cons, ih, Nat.succ_mul, Nat.add_comm]

theorem manager_of_run (hr : c.run invoke acts = some d) : d.manager = c.manager := by
  induction acts generalizing c with
  | nil => exact Option.some.inj hr ▸ rfl
  | cons a acts ih =>
    obtain ⟨c', ha, hr⟩ := Option.bind_eq_some_iff.1 hr
    refine (ih hr).trans ?_
    cases doing_of_act? ha <;> rfl

/-- **What is known of a crowd holds when it sets out** to call hooks through a new manager. -/
theorem sound_spawn {m : ManagerId} {plan : Plan} {factory : Nat} (hnew : s.New m plan factory)
    (hp : s.places = [.finished (.made m)]) (hook : String) (arguments : List HookArg)
    (threads calls : Nat) :
    ∃ M, Sound threads calls (spawn s m hook arguments threads calls) M := by
  have hall : ∀ p ∈ (s.withIdlers threads).places, ∃ o, p = .finished o ∧
      ∀ payload, o ≠ .panicked payload := by
    intro p hmem
    rw [State.withIdlers, hp] at hmem
    rcases List.mem_append.1 hmem with hmem | hmem
    · exact ⟨_, List.mem_singleton.1 hmem, by simp⟩
    · exact ⟨_, List.eq_of_mem_replicate hmem, by simp⟩
  have hfinished : ∀ j, ∃ o, (s.withIdlers threads).placeOf j = .finished o := by
    intro j
    cases hj : (s.withIdlers threads).places[j]? with
    | none => exact ⟨.done, by rw [State.placeOf, hj, Option.getD_none]⟩
    | some p =>
      obtain ⟨o, rfl, -⟩ := hall p (List.mem_of_getElem? hj)
      exact ⟨o, State.placeOf_eq hj⟩
  obtain ⟨M, hM⟩ := (hnew.withIdlers threads).serves hall
  refine ⟨M, hM, List.length_replicate, ?_, ?_, fun j _ => hfinished j, fun i left _ => hfinished _,
    ?_⟩
  · simp only [spawn, List.length_append, List.length_replicate]
  · simp only [spawn, hp, List.length_singleton, Nat.one_pos]
  · simp only [spawn, total_replicate, Worker.due, Tally.total, Bool.false_eq_true, if_false,
      Nat.add_zero, Nat.zero_add]

theorem new_of_start {factory : Factory σ} (htame : factory.Tame) {plan : Plan} {m : ManagerId}
    (hs : (State.initial [factory]).start invoke 0 (.establish 0 plan) = s)
    (hmade : s.outcome? 0 = some (.made m)) :
    s.New m plan 0 ∧ s.places = [.finished (.made m)] := by
  subst hs
  refine State.made_of_start (fun f hf => ?_) hmade
  rwa [List.mem_singleton.1 hf]

theorem ahead_spawn {m : ManagerId} (hp : s.places = [.finished (.made m)]) (hook : String)
    (arguments : List HookArg) (threads calls : Nat) :
    (spawn s m hook arguments threads calls).ahead = stepsPerCall * (threads * calls) := by
  simp only [ahead, spawn, hp, total_append, total_replicate, total_cons, total_nil, Worker.ahead,
    Place.ahead, Bool.false_eq_true, if_false, Nat.add_zero, Nat.mul_zero]
  exact Nat.mul_left_comm ..

theorem callsLeft_spawn (s : Lending.State σ) (m : ManagerId) (hook : String)
    (arguments : List HookArg) (threads calls : Nat) :
    (spawn s m hook arguments threads calls).callsLeft = threads * calls := by
  have hleft : ∀ workers : List Worker,
      workers.foldr (fun w n => w.left + n) 0 = total Worker.left workers := by
    intro workers
    induction workers with
    | nil => rfl
    | cons w workers ih => rw [List.foldr_cons, ih, total_cons]
  exact (hleft _).trans (total_replicate ..)

/-- What a stress run of `threads` workers that make `calls` calls each is like, where some acts have
led it. -/
structure Orderly (invoke : Invoke σ) (m : ManagerId) (threads calls : Nat) (acts : List Act)
    (c : Crowd σ) : Prop where
  /-- As long as a call is left, some worker can take a step, -/
  live : c.isJoined = false → ∃ i, ∀ chosen, ∃ d, c.act? invoke (.step i chosen) = some d
  /-- and they do not take steps for ever. -/
  bounded : acts.countP Act.isStep ≤
    stepsPerCall * (threads * calls) + acts.countP fun a => !a.isStep
  /-- When all workers are through, all calls are counted, -/
  counted : c.isJoined = true →
    c.tally.ok + c.tally.errno + c.tally.data + c.tally.failed = threads * calls
  /-- nothing is lent, and what was made is destroyed or at hand, -/
  atRest : c.isJoined = true → ∃ M, c.state.manager? m = some M ∧ c.stats = M.stats ∧
    c.stats.active = 0 ∧ c.stats.created = c.stats.destroyed + c.stats.idle
  /-- the shutdown goes well, -/
  shutDown : c.isJoined = true → (c.shutDown invoke).outcome? 0 = some .done
  /-- and failed calls are an error, and the only one. -/
  error : c.isJoined = true → ∀ message, (Stress.conclude invoke c calls).error? = some message ↔
    0 < c.tally.failed ∧ message =
      toString c.tally.failed ++ " of " ++ toString (threads * calls) ++ " calls failed"

/-- A run that ends with no error of the shutdown ends with that of the calls. -/
theorem Sound.error?_eq (h : Sound threads calls c M) (hj : c.isJoined = true) (message : String) :
    (Stress.conclude invoke c calls).error? = some message ↔ 0 < c.tally.failed ∧ message =
      toString c.tally.failed ++ " of " ++ toString (threads * calls) ++ " calls failed" := by
  have hdone : (Stress.conclude invoke c calls).outcome = some .done := h.shutDown_eq hj
  rw [Stress.Over.error?, hdone]
  simp only [Stress.Result.complaint?, Stress.conclude, h.workers]
  split
  · rename_i hfailed
    rw [Option.some.injEq]
    exact ⟨fun he => ⟨hfailed, he.symm⟩, fun he => he.2.symm⟩
  · rename_i hnone
    exact ⟨nofun, fun he => absurd he.1 hnone⟩

/-- **Every stress run is orderly**: with a pool of whatever sizes or a single manager, as long as
one could be made, whichever other contexts the factory fails to make, whatever the hook does, and in
whatever order the workers take their steps. -/
theorem orderly {factory : Factory σ} (htame : factory.Tame) {plan : Plan} {m : ManagerId}
    (hs : (State.initial [factory]).start invoke 0 (.establish 0 plan) = s)
    (hmade : s.outcome? 0 = some (.made m)) (hook : String) (arguments : List HookArg)
    (threads calls : Nat)
    (hrun : (spawn s m hook arguments threads calls).run invoke acts = some c) :
    Orderly invoke m threads calls acts c := by
  obtain ⟨hnew, hplaces⟩ := new_of_start htame hs hmade
  obtain ⟨M₀, hstart⟩ := sound_spawn hnew hplaces hook arguments threads calls
  obtain ⟨⟨M, hc⟩, hbound⟩ := hstart.run hrun
  have hmanager : c.manager = m := manager_of_run hrun
  have hthere : c.state.manager? m = some M := hmanager ▸ hc.serves.there
  rw [ahead_spawn hplaces] at hbound
  refine ⟨hc.exists_step, by omega, hc.total_eq, fun hj => ⟨M, hthere, hc.stats_eq, ?_, ?_⟩,
    hc.shutDown_eq, fun hj => hc.error?_eq hj⟩
  · rw [hc.stats_eq]
    exact (hc.at_rest hj).1
  · rw [hc.stats_eq]
    exact (hc.at_rest hj).2

/-- A factory that fails the first time it is asked, and then always loads a script. -/
def balky : Factory Unit where
  name := "balky"
  product n :=
    if n = 0 then .failed (.script "balky" (.raised "not yet")) [] else .loaded "balky" () []

/-- The hypotheses are satisfiable: of two workers one gets the only slot of a pool that starts empty
and keeps nothing, and cannot build a context; the other one sleeps meanwhile, also after it has
woken up without any cause, is then woken, and finds that there is no such hook. -/
theorem orderly_after_failed_build : ∃ (s : Lending.State Unit) (acts : List Act) (c : Crowd Unit),
    (State.initial [balky]).start inert 0 (.establish 0 (.pool ⟨0, 1, 0⟩)) = s ∧
      s.outcome? 0 = some (.made ⟨1⟩) ∧ (spawn s ⟨1⟩ "getattr" [] 2 1).run inert acts = some c ∧
        c.isJoined = true ∧ c.tally = ⟨0, 1, 0, 1⟩ ∧
          (Stress.conclude inert c 1).error? = some "1 of 2 calls failed" ∧
            Orderly inert ⟨1⟩ 2 1 acts c := by
  have htame : balky.Tame := by
    intro n payload h
    unfold balky at h
    dsimp only at h
    split at h <;> cases h
  have hrun : (spawn ((State.initial [balky]).start inert 0 (.establish 0 (.pool ⟨0, 1, 0⟩))) ⟨1⟩
      "getattr" [] 2 1).run inert
        [.step 0 0, .step 0 0, .step 1 0, .step 1 0, .rouse 1, .step 1 0, .step 0 0, .step 0 2,
          .step 0 0, .step 1 0, .step 1 0, .step 1 0, .step 1 0, .step 1 0, .step 1 0,
          .step 1 0] = some _ := rfl
  exact ⟨_, _, _, rfl, rfl, hrun, rfl, rfl, rfl, orderly htame rfl rfl "getattr" [] 2 1 hrun⟩

/-! ## The schedule -/

/-- **The schedule of a stress run is one of those runs**, and all workers are through at its end. -/
theorem settle_run {factory : Factory σ} (htame : factory.Tame) {plan : Plan} {m : ManagerId}
    (hs : (State.initial [factory]).start invoke 0 (.establish 0 plan) = s)
    (hmade : s.outcome? 0 = some (.made m)) (hook : String) (arguments : List HookArg)
    (threads calls : Nat) :
    ∃ M acts, (spawn s m hook arguments threads calls).run invoke acts =
        some ((spawn s m hook arguments threads calls).settle invoke) ∧
      Sound threads calls ((spawn s m hook arguments threads calls).settle invoke) M ∧
        ((spawn s m hook arguments threads calls).settle invoke).isJoined = true := by
  obtain ⟨hnew, hplaces⟩ := new_of_start htame hs hmade
  obtain ⟨M₀, hstart⟩ := sound_spawn hnew hplaces hook arguments threads calls
  obtain ⟨acts, hrun, hj⟩ : ∃ acts, (spawn s m hook arguments threads calls).run invoke acts =
      some ((spawn s m hook arguments threads calls).settle invoke) ∧ _ := by
    refine hstart.settleWithin (Nat.le_of_eq ?_)
    rw [ahead_spawn hplaces, callsLeft_spawn]
  obtain ⟨⟨M, h⟩, -⟩ := hstart.run hrun
  exact ⟨M, acts, hrun, h, hj⟩

end Crowd
end CommandLine
end HookPool
