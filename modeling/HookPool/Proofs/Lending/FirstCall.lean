/-
# The first call through a manager

A context that no call has served has the script that was loaded for it.  So where factories load
scripts whenever they are asked, the first call of a hook through a manager finds one of these as it
was loaded: it comes to what the hook comes to on it, whatever the kind of the manager, and whether
its context was at hand or had to be built.

Scripts that are loaded may differ; `fresh` is what they have in common.  `Unused` says that nothing
has happened to any script, `OnFirstCall` how far the call has come.

Main statement: `start_firstCall`.
-/
import HookPool.Proofs.Lending.Alone
import HookPool.Proofs.Lending.Course
import HookPool.Proofs.Lending.Factories
import HookPool.Proofs.Lending.Settled

namespace HookPool
namespace Lending

variable {σ : Type}

/-- Whenever a factory is asked, it loads a script, which is a fresh one. -/
def AlwaysLoads (fresh : σ → Prop) (product : Nat → Product σ) : Prop :=
  ∀ n, ∃ name script lines, product n = .loaded name script lines ∧ fresh script

/-- The caller opens a context as it was told, and has not yet failed to. -/
def Place.Opens (r : Request) : Place σ → Prop
  | .asking r' | .asleep r' | .building r' | .grown r' _ => r' = r
  | _ => False

namespace State

variable {invoke : Invoke σ} {s t : State σ} {mv : Move σ} {i n chosen : Nat} {p : Place σ}
  {u : Upshot σ} {m : ManagerId} {M : Manager σ} {fresh : σ → Prop} {hook : String}
  {arguments : List HookArg} {o : Outcome} {r : Request} {plan : Plan} {factory : Nat}

/-! ## Scripts to which nothing has happened -/

/-- Factories load fresh scripts whenever they are asked, and all contexts have such ones. -/
structure Unused (invoke : Invoke σ) (fresh : σ → Prop) (s : State σ) : Prop where
  loads : ∀ product ∈ s.products, AlwaysLoads fresh product
  has : ∀ c, s.Has invoke c → fresh c.script

theorem Unused.loaded? (h : Unused invoke fresh s) {factory : Nat} {loaded : σ}
    (hl : s.loaded? factory = some loaded) : fresh loaded := by
  unfold State.loaded? at hl
  obtain ⟨maker, hmaker, hproduct⟩ := Option.bind_eq_some_iff.1 hl
  obtain ⟨name, script, lines, hload, hfresh⟩ := h.loads maker.product
    (List.mem_map_of_mem (List.mem_of_getElem? hmaker)) maker.asked
  rw [hload] at hproduct
  exact Option.some.inj hproduct ▸ hfresh

theorem Unused.loads? (h : Unused invoke fresh s) {loaded : σ} (hl : s.loads? mv = some loaded) :
    fresh loaded := by
  unfold State.loads? at hl
  split at hl
  · split at hl
    · obtain ⟨M, -, hl⟩ := Option.bind_eq_some_iff.1 hl
      exact h.loaded? hl
    · split at hl
      · exact h.loaded? hl
      · cases hl
    · exact h.loaded? hl
    · cases hl
  · cases hl

/-- **As long as no context is lent for a call**, nothing happens to any script. -/
theorem Unused.move (h : Unused invoke fresh s) (hr : s.Registered)
    (hm : s.move invoke mv = some t) (hc : t.Calm) (huse : ∀ i script, mv ≠ .use i script)
    (hno : ∀ i m hook arguments c, t.placeOf i ≠ .running m hook arguments c) :
    Unused invoke fresh t := by
  refine ⟨?_, fun d hd => ?_⟩
  · rw [products_move hm]
    exact h.loads
  · obtain hd | hborn | ⟨i, -, m, hook, arguments, c, -, hplace, -⟩ :=
      has_of_move hr hm hc huse hd
    · exact h.has d hd
    · exact h.loads? hborn.script
    · exact absurd hplace (hno i m hook arguments c)

/-! ## The call -/

/-- How far a caller has come whose call is the first one: it opens a context, to which nothing has
happened, or it is on its course to the reply. -/
structure OnFirstCall (invoke : Invoke σ) (fresh : σ → Prop) (i : Nat) (m : ManagerId) (hook : String)
    (arguments : List HookArg) (s : State σ) : Prop where
  reachable : Reachable invoke s
  left : LeftTo s i
  serves : ∃ M, Serves s m M
  stage : Unused invoke fresh s ∧ (s.placeOf i).Opens ⟨m, .call hook arguments, none⟩ ∨
    ∃ script n, fresh script ∧
      (s.placeOf i).course invoke false m = some ((invoke script hook arguments).outcome, n)

theorem Serves.calm (h : Serves s m M) : s.Calm := fun p hp => (h.calls p hp).calm

theorem Serves.sound (h : Serves s m M) : M.poisoned = false := by
  obtain ⟨signalled, -, -, hbal⟩ := h.books
  exact hbal.sound

theorem Serves.intact (h : Serves s m M) (hs : Reachable invoke s) : Intact invoke false s m where
  reachable := hs
  calm := h.calm
  made := h.registered.not_fresh h.there
  sound M' hM' := Option.some.inj (h.there.symm.trans hM') ▸ h.sound
  closed _ _ hc := by cases hc

/-- The place of the caller after its own step. -/
theorem turn_of_run (hm : s.move invoke (.run i chosen) = some t) :
    ∃ u, Turn invoke s i (.run i chosen) (s.placeOf i) u ∧ t.placeOf i = u.place := by
  obtain ⟨-, u, -, hu, -, hplace⟩ | ⟨hturn, -⟩ := move_cases hm i
  · exact ⟨u, hu, hplace⟩
  · rw [Move.isTurnOf, decide_eq_true rfl] at hturn
    cases hturn

/-- Where a factory loads a script whenever it is asked, building does not fail. -/
theorem Unused.build_ne_failed (h : Unused invoke fresh s) {factory : Nat} {e : Error} :
    s.build factory ≠ (t, .failed e) := by
  intro hb
  obtain ⟨c, lines, hc, -⟩ | ⟨e', lines, -, hproduct⟩ | ⟨payload, hp, -⟩ := build_product hb
  · cases hc
  · obtain ⟨maker, hmaker, hfailed⟩ := Option.map_eq_some_iff.1 hproduct
    obtain ⟨name, script, lines', hload, -⟩ := h.loads maker.product
      (List.mem_map_of_mem (List.mem_of_getElem? hmaker)) maker.asked
    rw [hload] at hfailed
    cases hfailed
  · cases hp

/-- **An opener goes on to open, or has its context**, where nothing can fail. -/
theorem Turn.opens_on (h : Turn invoke s i (.run i chosen) p u) (hp : p.Opens r)
    (hcalm : u.place.isGrieving = false) (hunused : Unused invoke fresh s)
    (hM : s.manager? r.manager = some M) (hsound : M.poisoned = false) (hopen : M.closed = false)
    (hdeadline : r.deadline = none) : u.place.Opens r ∨ ∃ c, u.place = r.served c := by
  cases h with
  | opening h =>
    cases h with
    | barred hm hbad =>
      obtain rfl := hp
      obtain rfl := Option.some.inj (hM.symm.trans hm)
      exact absurd (hsound.symm.trans hbad) (by decide)
    | shutOut hm _ hbad =>
      obtain rfl := hp
      obtain rfl := Option.some.inj (hM.symm.trans hm)
      exact absurd (hopen.symm.trans hbad) (by decide)
    | timedOut _ _ _ _ hd =>
      obtain rfl := hp
      rw [hdeadline] at hd
      cases hd
    | buildFailed _ hb => exact absurd hb hunused.build_ne_failed
    | lent | counted =>
      obtain rfl := hp
      exact .inr ⟨_, rfl⟩
    | reserved | fellAsleep | built => exact .inl hp
    | lentCrash | buildFailedCrash | countedCrash => cases hcalm
    | buildCrash => cases hcalm
    | gaveUp => cases hp
  | givingBack h => cases h <;> cases hp
  | stopping h => cases h <;> cases hp
  | making h => cases h <;> cases hp

/-- **One step of the first call.** -/
theorem OnFirstCall.step (h : OnFirstCall invoke fresh i m hook arguments s)
    (hm : s.move invoke (.run i chosen) = some t) :
    OnFirstCall invoke fresh i m hook arguments t := by
  obtain ⟨M, hserves⟩ := h.serves
  obtain ⟨M', ht⟩ := hserves.move hm trivial
  have hreach := h.reachable.move hm
  have hleft := h.left.step hm
  refine ⟨hreach, hleft, ⟨M', ht⟩, ?_⟩
  obtain ⟨u, hu, hplace⟩ := turn_of_run hm
  rcases h.stage with ⟨hunused, hopens⟩ | ⟨script, n, hfresh, hcourse⟩
  · obtain hnext | ⟨c, hserved⟩ := hu.opens_on hopens (hplace ▸ ht.calm.placeOf i) hunused
      hserves.there hserves.sound hserves.isOpen rfl
    · refine .inl ⟨hunused.move hserves.registered hm ht.calm (by simp) ?_, hplace ▸ hnext⟩
      intro j k hook arguments c hrun
      by_cases hj : j = i
      · rw [hj, hplace] at hrun
        rw [hrun] at hnext
        exact hnext
      · obtain ⟨o, ho⟩ := hleft j hj
        rw [ho] at hrun
        cases hrun
    · have hrun : t.placeOf i = .running m hook arguments c := hplace.trans hserved
      obtain ⟨hhas, -⟩ := has_of_lent hserves.registered hm hrun
      have howned : c.owner = some m := by
        have hmark := ht.registered.marked _
          (List.mem_of_getElem? (mem_places_of_placeOf hrun (by simp)))
        exact hmark
      refine .inr ⟨c.script, 3, hunused.has c hhas, ?_⟩
      rw [hrun, Place.course, if_pos ⟨rfl, howned⟩]
  · cases n with
    | zero =>
      rw [finished_of_course hcourse] at hu
      obtain ⟨operation, hmv, -⟩ := hu.of_finished
      cases hmv
    | succ n =>
      obtain ⟨n', -, hn⟩ := (hserves.intact h.reachable).course_move hm ht.calm hcourse
      exact .inr ⟨script, n', hfresh, hn⟩

/-- The outcome of a call of the hook on some fresh script. -/
def IsFirstOutcome (invoke : Invoke σ) (fresh : σ → Prop) (hook : String) (arguments : List HookArg)
    (o : Outcome) : Prop :=
  ∃ script, fresh script ∧ o = (invoke script hook arguments).outcome

/-- The caller finishes with the reply. -/
theorem OnFirstCall.finished (h : OnFirstCall invoke fresh i m hook arguments s)
    (ho : s.placeOf i = .finished o) : IsFirstOutcome invoke fresh hook arguments o := by
  rcases h.stage with ⟨-, hopens⟩ | ⟨script, n, hfresh, hcourse⟩
  · rw [ho] at hopens
    exact hopens.elim
  · rw [ho] at hcourse
    exact ⟨script, hfresh, (Prod.mk.inj (Option.some.inj hcourse)).1⟩

/-- Going on alone, the caller has come to its reply, or takes a step of its call. -/
theorem OnFirstCall.next (h : OnFirstCall invoke fresh i m hook arguments s)
    (hi : i < s.places.length) :
    (∃ o, s.outcome? i = some o ∧ IsFirstOutcome invoke fresh hook arguments o ∧
      ∀ n, s.settleWithin invoke n = s) ∨
    ∃ t, OnFirstCall invoke fresh i m hook arguments t ∧ i < t.places.length ∧
      total Place.ahead t.places < total Place.ahead s.places ∧
        ∀ n, s.settleWithin invoke (n + 1) = t.settleWithin invoke n := by
  by_cases hfinished : ∃ o, s.placeOf i = .finished o
  · obtain ⟨o, ho⟩ := hfinished
    exact .inl ⟨o, outcome?_of_placeOf ho hi, h.finished ho, h.left.settleWithin_finished ho⟩
  · have hp := mem_places_of_placeOf (s := s) rfl (not_exists.1 hfinished)
    obtain ⟨M, hserves⟩ := h.serves
    obtain ⟨q, hq, hready⟩ :=
      hserves.exists_ready (List.mem_of_getElem? hp) (not_exists.1 hfinished)
    obtain ⟨j, hj⟩ := List.mem_iff_getElem?.1 hq
    by_cases hji : j = i
    · subst hji
      obtain ⟨t, hstep⟩ := hserves.possible hj hready s.places.length
      have hm : s.move invoke (.run j s.places.length) = some t := hstep
      exact .inr ⟨t, h.step hm, Nat.lt_of_lt_of_le hi (length_places_le hm),
        hserves.ahead_run hm, h.left.settleWithin_succ hj hready hstep⟩
    · rw [h.left.isReady_eq_false hj hji] at hready
      cases hready

/-- **The first call comes to its reply.** -/
theorem OnFirstCall.settleWithin (h : OnFirstCall invoke fresh i m hook arguments s)
    (hi : i < s.places.length) (hn : total Place.ahead s.places ≤ n) :
    ∃ o, (s.settleWithin invoke n).outcome? i = some o ∧
      IsFirstOutcome invoke fresh hook arguments o := by
  induction n generalizing s with
  | zero =>
    obtain ⟨o, ho, hfirst, hrest⟩ | ⟨t, -, -, hless, -⟩ := h.next hi
    · rw [hrest]
      exact ⟨o, ho, hfirst⟩
    · omega
  | succ n ih =>
    obtain ⟨o, ho, hfirst, hrest⟩ | ⟨t, ht, hi', hless, hnext⟩ := h.next hi
    · rw [hrest]
      exact ⟨o, ho, hfirst⟩
    · rw [hnext]
      exact ih ht hi' (by omega)

/-! ## A manager that has just been made -/

/-- Making a manager does nothing to any script. -/
theorem Unused.settleWithin_warming {k : ManagerId} {built : List (Context σ)}
    (h : Unused invoke fresh s) (hs : Reachable invoke s) (ht : s.Tame)
    (hf : factory < s.factories.length) (hp : s.places = [.warming k plan factory built]) :
    Reachable invoke (s.settleWithin invoke n) ∧ Unused invoke fresh (s.settleWithin invoke n) := by
  induction n generalizing s built with
  | zero => exact ⟨hs, h⟩
  | succ n ih =>
    have hat : s.places[0]? = some (.warming k plan factory built) := by rw [hp]; rfl
    have hleft : LeftTo s 0 := by
      intro j hj
      obtain ⟨j, rfl⟩ := Nat.exists_eq_succ_of_ne_zero hj
      exact ⟨.done, by rw [State.placeOf, hp]; rfl⟩
    have hstep : s.step? invoke 0 s.places.length = some (s.warm 0 k plan factory built) := by
      simp only [step?, hat]
    have hm : s.move invoke (.run 0 s.places.length) = some (s.warm 0 k plan factory built) := hstep
    rw [hleft.settleWithin_succ hat rfl hstep]
    obtain ⟨t, q, hq, hunder, hcases⟩ := ht.warm 0 k plan hf built
    rw [hq] at hm hstep ⊢
    have hlength : t.places.length = 1 := by rw [hunder.length, hp]; rfl
    have hall : (t.put 0 q).places = [q] := by
      obtain ⟨p, hone⟩ := List.length_eq_one_iff.1 hlength
      rw [places_put, hone]
      rfl
    have hf' : factory < (t.put 0 q).factories.length := by
      rw [factories_put, hunder.length_factories]
      exact hf
    have hcalm : q.isGrieving = false ∧ ∀ m hook arguments c, q ≠ .running m hook arguments c := by
      obtain ⟨c, rfl⟩ | ⟨e, rfl⟩ | ⟨rfl, -⟩ := hcases <;> exact ⟨rfl, by simp⟩
    have hnow : Unused invoke fresh (t.put 0 q) := by
      refine h.move hs.registered hm (by rw [Calm, hall]; simpa using hcalm.1) (by simp) ?_
      intro j m hook arguments c hrun
      obtain ⟨o, ho⟩ | rfl : (∃ o, (t.put 0 q).placeOf j = .finished o) ∨ j = 0 := by
        by_cases hj : j = 0
        · exact .inr hj
        · exact .inl (hleft.step hstep j hj)
      · rw [ho] at hrun
        cases hrun
      · rw [State.placeOf, hall] at hrun
        exact hcalm.2 m hook arguments c hrun
    have hs' := hs.move hm
    obtain ⟨c, rfl⟩ | ⟨o, rfl⟩ : (∃ c, q = .warming k plan factory (built ++ [c])) ∨
        ∃ o, q = .finished o := by
      obtain hgoes | ⟨e, he⟩ | ⟨he, -⟩ := hcases
      · exact .inl hgoes
      · exact .inr ⟨_, he⟩
      · exact .inr ⟨_, he⟩
    · exact ih hnow hs' ((hunder.tame ht).put 0 _) hf' hall
    · rw [(hleft.step hstep).settleWithin_finished (placeOf_eq (by rw [hall]; rfl))]
      exact ⟨hs', hnow⟩

end State
end Lending
end HookPool
