/-
# Pools that lend as many contexts block alike

How many contexts a pool starts with, and how many it keeps, decides when it builds contexts and
when it destroys some.  None of that shows in who has to wait: as far as its callers can tell, a
pool is a semaphore with as many permits as it may lend contexts (`Counts.run`, `Counts.matched`).
So two pools that may lend as many, with whatever factories, cannot be told apart by what openers
and holders come to (`pools_block_alike`).
-/
import HookPool.Proofs.Lending.Semaphore

namespace HookPool
namespace Lending

variable {σ : Type}

/-- The operation opens a context of the manager to hold it, or shuts the manager down. -/
def Operation.isOn (m : ManagerId) : Operation → Bool
  | .acquire k purpose _ => k = m && purpose.isPlain
  | .shutDown k => k = m
  | _ => false

/-- The holder gives its context back to the manager, ends its lease, or drops the context. -/
def Handling.isOn (m : ManagerId) : Handling → Bool
  | .close k => k = m
  | .release | .leave => true
  | .unwind _ | .recover => false

/-- The move is one of callers that open contexts of the manager and give them back. -/
def Move.isOn (m : ManagerId) : Move σ → Bool
  | .begin _ operation => operation.isOn m
  | .handle _ handling => handling.isOn m
  | .run .. | .use .. | .rouse _ | .tick _ => true
  | .arm _ => false

/-- The opener has found nothing: it sleeps, or its time is over. -/
def Place.HasWaited : Place σ → Prop
  | .asleep _ | .finished (.failed (.timeout _)) => True
  | _ => False

theorem Place.not_hasWaited_served (r : Request) (c : Context σ) : ¬(r.served c).HasWaited :=
  r.served_induction c (fun _ h => h) (fun _ _ h => h)

namespace State

variable {invoke : Invoke σ} {s t : State σ} {mv : Move σ} {moves rest acts : List (Move σ)}
  {i chosen : Nat} {m : ManagerId} {M : Manager σ} {q q' : Semaphore} {p : Place σ} {u : Upshot σ}

/-! ## Moves that the semaphore sees -/

/-- The move is a step that is hidden from the semaphore. -/
def hides (s : State σ) : Move σ → Bool
  | .run i _ => 0 < (s.placeOf i).hidden
  | _ => false

/-- The moves of a run that the semaphore sees. -/
def seenOn (invoke : Invoke σ) (s : State σ) : List (Move σ) → List (Move σ)
  | [] => []
  | mv :: rest =>
    match s.move invoke mv with
    | some t => (if s.hides mv then [] else [mv]) ++ t.seenOn invoke rest
    | none => []

theorem seenOn_cons (hm : s.move invoke mv = some t) (rest : List (Move σ)) :
    s.seenOn invoke (mv :: rest) = (if s.hides mv then [] else [mv]) ++ t.seenOn invoke rest := by
  rw [seenOn, hm]

theorem seenOn_append (h : s.run invoke moves = some t) (rest : List (Move σ)) :
    s.seenOn invoke (moves ++ rest) = s.seenOn invoke moves ++ t.seenOn invoke rest := by
  induction moves generalizing s with
  | nil =>
    obtain rfl := Option.some.inj h
    rfl
  | cons mv moves ih =>
    obtain ⟨s₁, hm, h⟩ := run_cons h
    rw [List.cons_append, seenOn_cons hm, seenOn_cons hm, ih h, List.append_assoc]

theorem seenOn_subset (hon : ∀ mv ∈ moves, mv.isOn m = true) (h : s.run invoke moves = some t) :
    ∀ mv ∈ s.seenOn invoke moves, mv.isOn m = true := by
  induction moves generalizing s with
  | nil => exact nofun
  | cons mv moves ih =>
    obtain ⟨hmv, hmoves⟩ := List.forall_mem_cons.1 hon
    obtain ⟨s₁, hm, hrest⟩ := run_cons h
    rw [seenOn_cons hm, List.forall_mem_append]
    refine ⟨?_, ih hmoves hrest⟩
    split
    · exact nofun
    · exact List.forall_mem_singleton.2 hmv

/-- A caller that has hidden steps left takes one of them. -/
theorem Turn.hidden_lt (h : Turn invoke s i mv p u) (hp : 0 < p.hidden) :
    (∃ chosen, mv = .run i chosen) ∧ u.place.hidden < p.hidden := by
  have hserved (r : Request) (c : Context σ) : (r.served c).hidden = 0 :=
    r.served_induction c (fun _ => rfl) (fun _ _ => rfl)
  cases h with
  | opening h =>
    refine ⟨⟨_, rfl⟩, ?_⟩
    cases h with
    | counted => rw [hserved]; exact Nat.zero_lt_one
    | built => exact Nat.lt_succ_self 1
    | buildFailed | buildFailedCrash | buildCrash => exact Nat.zero_lt_two
    | countedCrash => exact Nat.zero_lt_one
    | _ => cases hp
  | givingBack h =>
    refine ⟨⟨_, rfl⟩, ?_⟩
    cases h with
    | evicted => exact Nat.zero_lt_one
    | _ => cases hp
  | stopping h =>
    refine ⟨⟨_, rfl⟩, ?_⟩
    cases h with
    | drained => exact Nat.lt_succ_self _
    | drainCrash => exact Nat.succ_pos _
    | ended => exact Nat.zero_lt_one
    | _ => cases hp
  | making h => cases h <;> cases hp
  | beginning h => cases h <;> cases hp
  | dealing h => cases h <;> cases hp
  | works => cases hp
  | rousing => cases hp

/-- Nobody with hidden steps left makes a move that the semaphore sees. -/
theorem hidden_eq_zero (hm : s.move invoke mv = some t) (hhides : s.hides mv = false) (i : Nat)
    (hi : mv.isTurnOf i = true) : (s.placeOf i).hidden = 0 := by
  refine Nat.eq_zero_of_not_pos fun hpos => ?_
  obtain ⟨-, u, -, hu, -⟩ | ⟨hnot, -⟩ := move_cases hm i
  · obtain ⟨⟨chosen, rfl⟩, -⟩ := hu.hidden_lt hpos
    rw [hides, decide_eq_true hpos] at hhides
    cases hhides
  · rw [hi] at hnot
    cases hnot

/-! ## One move -/

/-- The semaphore of a state, whatever manager stands under the number. -/
def Counted (m : ManagerId) (s : State σ) (q : Semaphore) : Prop :=
  ∃ M, Counts s m M q

namespace Counts

theorem stanceOf (h : Counts s m M q) (i : Nat) : q.stanceOf i = (s.placeOf i).stance := by
  rw [Semaphore.stanceOf, h.caller?, State.placeOf]
  cases s.places[i]? <;> rfl

theorem isFree (h : Counts s m M q) (hp : (s.placeOf i).hidden = 0) :
    q.isFree i = s.isFree i := by
  unfold Semaphore.isFree State.isFree
  rw [h.caller?, h.callers, List.length_map]
  cases hi : s.places[i]? with
  | none => rfl
  | some p =>
    rw [placeOf_eq hi] at hp
    cases p with
    | evicting | draining => cases hp
    | holding tenure c => cases tenure <;> rfl
    | _ => rfl

theorem begin? (h : Counts s m M q) {operation : Operation} (hop : operation.isOn m = true)
    (hp : (s.placeOf i).hidden = 0) :
    Option.Rel (Counted m) (s.begin? i operation) (q.begin? i operation) := by
  unfold State.begin? Semaphore.begin?
  rw [h.isFree hp]
  split
  · cases operation with
    | acquire k purpose timeout =>
      obtain ⟨hk, hplain⟩ := Bool.and_eq_true_iff.1 hop
      obtain rfl := of_decide_eq_true hk
      have hdeadline : q.deadline? timeout = s.deadline? timeout := by
        cases timeout with
        | none => rfl
        | some after => simp only [Semaphore.deadline?, State.deadline?, h.clock]
      dsimp only
      rw [State.withManager, h.there, hdeadline]
      exact .some ⟨M, h.put i (p := .asking _) ⟨rfl, hplain⟩⟩
    | shutDown k =>
      obtain rfl := of_decide_eq_true hop
      dsimp only
      rw [State.withManager, h.there]
      exact .some ⟨M, h.put i (p := .stopping k) rfl⟩
    | _ => cases hop
  · exact .none

theorem step? (h : Counts s m M q) (hs : Reachable invoke s) (chosen : Nat)
    (hp : (s.placeOf i).hidden = 0) :
    Option.Rel (Counted m) (s.step? invoke i chosen) (q.step? i chosen) := by
  unfold State.step? Semaphore.step?
  rw [h.stanceOf]
  cases hi : s.places[i]? with
  | none =>
    rw [State.placeOf, hi]
    exact .none
  | some p =>
    have hord := h.ordinary p (List.mem_of_getElem? hi)
    rw [placeOf_eq hi] at hp ⊢
    cases p with
    | asking r =>
      obtain ⟨rfl, hplain⟩ := hord
      dsimp only
      rw [State.withManager, h.there]
      exact .some (h.ask i rfl hplain (hs.bounded h.there fun _ => false)
        (hs.registered.stocked _ M h.there))
    | returning k aim c =>
      obtain ⟨rfl, haim, hc⟩ := hord
      dsimp only
      rw [State.withManager, h.there]
      exact .some (h.giveBack i chosen haim hc)
    | stopping k =>
      obtain rfl := hord
      dsimp only
      rw [State.withManager, h.there]
      exact .some (h.stop i)
    | holding tenure c =>
      cases tenure <;> exact .none
    | asleep | finished => exact .none
    | building | grown | evicting | draining => cases hp
    | _ => cases hord

theorem handle? (h : Counts s m M q) {handling : Handling} (hon : handling.isOn m = true)
    (hp : (s.placeOf i).hidden = 0) :
    Option.Rel (Counted m) (s.handle? i handling) (q.handle? i handling) := by
  unfold State.handle? Semaphore.handle?
  rw [h.stanceOf]
  cases hi : s.places[i]? with
  | none =>
    rw [State.placeOf, hi]
    exact .none
  | some p =>
    have hord := h.ordinary p (List.mem_of_getElem? hi)
    rw [placeOf_eq hi] at hp ⊢
    cases p with
    | holding tenure c =>
      cases tenure with
      | direct =>
        cases handling with
        | close k =>
          obtain rfl := of_decide_eq_true hon
          dsimp only
          rw [State.withManager, h.there]
          exact .some ⟨M, h.put i (p := .returning k .close c) ⟨rfl, rfl, hord⟩⟩
        | leave =>
          dsimp only
          rw [State.letGo, State.destroy, destroyFor_unarmed h.unarmed]
          exact .some ⟨M, (h.record _).put i (p := .finished .done) trivial⟩
        | release => exact .none
        | _ => cases hon
      | leased k =>
        obtain ⟨rfl, hc⟩ := hord
        cases handling with
        | release => exact .some ⟨M, h.put i (p := .returning k .close c) ⟨rfl, rfl, hc⟩⟩
        | leave => exact .some ⟨M, h.put i (p := .returning k .leave c) ⟨rfl, rfl, hc⟩⟩
        | close => exact .none
        | _ => cases hon
    | building | grown | evicting | draining => cases hp
    | asking | asleep | returning | stopping | finished => exact .none
    | _ => cases hord

theorem use? (h : Counts s m M q) (script : σ) (hp : (s.placeOf i).hidden = 0) :
    Option.Rel (Counted m) (s.use? i script) (q.use? i) := by
  unfold State.use? Semaphore.use?
  rw [h.stanceOf]
  have hcaller := h.caller? i
  cases hi : s.places[i]? with
  | none =>
    rw [State.placeOf, hi]
    exact .none
  | some p =>
    have hord := h.ordinary p (List.mem_of_getElem? hi)
    rw [hi] at hcaller
    rw [placeOf_eq hi] at hp ⊢
    cases p with
    | holding tenure c =>
      cases tenure with
      | direct =>
        exact .some ⟨M, h.put_hidden (p := .holding .direct { c with script }) hcaller hord⟩
      | leased k =>
        exact .some ⟨M, h.put_hidden (p := .holding (.leased k) { c with script }) hcaller hord⟩
    | building | grown | evicting | draining => cases hp
    | asking | asleep | returning | stopping | finished => exact .none
    | _ => cases hord

theorem rouse? (h : Counts s m M q) :
    Option.Rel (Counted m) (s.rouse? i) (q.rouse? i) := by
  unfold State.rouse? Semaphore.rouse?
  rw [h.stanceOf]
  cases hi : s.places[i]? with
  | none =>
    rw [State.placeOf, hi]
    exact .none
  | some p =>
    have hord := h.ordinary p (List.mem_of_getElem? hi)
    rw [placeOf_eq hi]
    cases p with
    | asleep r => exact .some ⟨M, h.put i (p := .asking r) hord⟩
    | holding tenure c => cases tenure <;> exact .none
    | _ => exact .none

/-- **A move is possible for a pool as for its semaphore, and comes to the same**, if its caller has
no hidden steps left. -/
theorem move (h : Counts s m M q) (hs : Reachable invoke s) (hon : mv.isOn m = true)
    (hp : ∀ i, mv.isTurnOf i = true → (s.placeOf i).hidden = 0) :
    Option.Rel (Counted m) (s.move invoke mv) (q.move mv) := by
  cases mv with
  | begin i operation => exact h.begin? hon (hp i (decide_eq_true rfl))
  | run i chosen => exact h.step? hs chosen (hp i (decide_eq_true rfl))
  | handle i handling => exact h.handle? hon (hp i (decide_eq_true rfl))
  | use i script => exact h.use? script (hp i (decide_eq_true rfl))
  | rouse i => exact h.rouse?
  | tick nanos => exact .some ⟨M, { h with clock := congrArg (· + nanos) h.clock }⟩
  | arm text => cases hon

/-- **A hidden step is always possible**, and leaves fewer of them. -/
theorem hidden (h : Counts s m M q) (invoke : Invoke σ) (chosen : Nat)
    (hp : 0 < (s.placeOf i).hidden) :
    ∃ t, s.move invoke (.run i chosen) = some t ∧ Counted m t q ∧
      total Place.hidden t.places < total Place.hidden s.places := by
  obtain ⟨t, hm, ht⟩ : ∃ t, s.move invoke (.run i chosen) = some t ∧ Counted m t q := by
    have hat : s.places[i]? = some (s.placeOf i) := mem_places_of_placeOf rfl fun o ho => by
      rw [ho] at hp
      cases hp
    have hord := h.ordinary _ (List.mem_of_getElem? hat)
    have hcaller := h.caller? i
    rw [hat] at hcaller
    rw [State.move, State.step?, hat]
    generalize s.placeOf i = p at hp hord hcaller
    cases p with
    | building r =>
      obtain ⟨rfl, hplain⟩ := hord
      dsimp only
      rw [State.withManager, h.there]
      exact ⟨_, rfl, M, h.grow hcaller rfl hplain⟩
    | grown r c =>
      obtain ⟨rfl, hplain, hc⟩ := hord
      dsimp only
      rw [State.withManager, h.there]
      exact ⟨_, rfl, _, h.countGrown hcaller rfl hplain hc⟩
    | evicting k aim c =>
      obtain ⟨rfl, haim⟩ := hord
      rw [Option.map_some, Place.stance, Aim.verdict_ok haim] at hcaller
      dsimp only
      rw [State.withManager, h.there]
      exact ⟨_, rfl, _, h.evict hcaller haim⟩
    | draining k active first contexts =>
      obtain rfl := hord
      dsimp only
      rw [State.withManager, h.there]
      exact ⟨_, rfl, h.drain hcaller⟩
    | _ => cases hp
  refine ⟨t, hm, ht, ?_⟩
  obtain ⟨k, u, hk, hu, hf⟩ | hidle := move_turn hm
  · have hki : k = i := by
      have hturn := hu.isTurnOf (j := i)
      rw [Move.isTurnOf, decide_eq_true rfl] at hturn
      exact of_decide_eq_true hturn.symm
    subst hki
    have htotal := hf.total hk (fun r => rfl : Steady Place.hidden) rfl
    have hlt := (hu.hidden_lt hp).2
    omega
  · obtain ⟨nanos, he⟩ | ⟨text, he⟩ := hidle.move <;> cases he

/-! ## Runs -/

/-- **What the semaphore sees of a run of the pool is a run of its own**, and comes to the same. -/
theorem run (h : Counts s m M q) (hs : Reachable invoke s) (hon : ∀ mv ∈ moves, mv.isOn m = true)
    (hrun : s.run invoke moves = some t) :
    ∃ q', q.run (s.seenOn invoke moves) = some q' ∧ Counted m t q' := by
  induction moves generalizing s M q with
  | nil =>
    obtain rfl := Option.some.inj hrun
    exact ⟨q, rfl, M, h⟩
  | cons mv moves ih =>
    obtain ⟨hmv, hmoves⟩ := List.forall_mem_cons.1 hon
    obtain ⟨s₁, hm, hrest⟩ := run_cons hrun
    rw [seenOn_cons hm]
    cases hhides : s.hides mv with
    | true =>
      rw [if_pos rfl, List.nil_append]
      cases mv with
      | run i chosen =>
        obtain ⟨s₂, hm', ⟨M', h'⟩, -⟩ := h.hidden invoke chosen (of_decide_eq_true hhides)
        obtain rfl := Option.some.inj (hm.symm.trans hm')
        exact ih h' (hs.move hm) hmoves hrest
      | _ => cases hhides
    | false =>
      have hrel := h.move hs hmv (hidden_eq_zero hm hhides)
      rw [hm] at hrel
      rw [if_neg (by decide), List.singleton_append, Semaphore.run]
      cases hq : q.move mv with
      | none => rw [hq] at hrel; cases hrel
      | some q₁ =>
        rw [hq] at hrel
        cases hrel with
        | some h' =>
          obtain ⟨M', h'⟩ := h'
          exact ih h' (hs.move hm) hmoves hrest

/-- **Callers can go on by hidden steps until none are left.** -/
theorem settle (h : Counts s m M q) (invoke : Invoke σ) :
    ∃ moves t, (∀ mv ∈ moves, mv.isOn m = true) ∧ s.run invoke moves = some t ∧
      s.seenOn invoke moves = [] ∧ Counted m t q ∧ total Place.hidden t.places = 0 := by
  generalize hn : total Place.hidden s.places = n
  induction n using Nat.strongRecOn generalizing s M with
  | ind n ih =>
    by_cases hzero : n = 0
    · exact ⟨[], s, nofun, rfl, rfl, ⟨M, h⟩, hn.trans hzero⟩
    · -- some caller has a hidden step left
      obtain ⟨i, p, hi, hp⟩ := exists_of_total_pos (by omega : 0 < total Place.hidden s.places)
      have hpos : 0 < (s.placeOf i).hidden := by rwa [placeOf_eq hi]
      obtain ⟨s₁, hm, ⟨M', h'⟩, hlt⟩ := h.hidden invoke 0 hpos
      obtain ⟨moves, t, hon, hrun, hseen, ht, hrest⟩ := ih _ (by omega) h' rfl
      refine ⟨.run i 0 :: moves, t, List.forall_mem_cons.2 ⟨rfl, hon⟩, ?_, ?_, ht, hrest⟩
      · rw [State.run, hm, Option.bind_some, hrun]
      · rw [seenOn_cons hm, hides, decide_eq_true hpos, if_pos rfl, hseen, List.nil_append]

/-- **Whatever the semaphore can do, the pool can do**, with some steps that are hidden. -/
theorem matched (h : Counts s m M q) (hs : Reachable invoke s)
    (hon : ∀ mv ∈ acts, mv.isOn m = true) (hq : q.run acts = some q') :
    ∃ moves t, (∀ mv ∈ moves, mv.isOn m = true) ∧ s.run invoke moves = some t ∧
      s.seenOn invoke moves = acts ∧ Counted m t q' ∧ total Place.hidden t.places = 0 := by
  induction acts generalizing s M q with
  | nil =>
    obtain rfl := Option.some.inj hq
    exact h.settle invoke
  | cons mv acts ih =>
    obtain ⟨hmv, hacts⟩ := List.forall_mem_cons.1 hon
    obtain ⟨before, s₀, hbefore, hrun₀, hseen₀, ⟨M₀, h₀⟩, hzero⟩ := h.settle invoke
    have hs₀ := hs.run hrun₀
    have hplain : ∀ i, (s₀.placeOf i).hidden = 0 := fun i =>
      Nat.le_zero.1 (hzero ▸ placeOf_le_total rfl i)
    have hrel := h₀.move hs₀ hmv fun i _ => hplain i
    obtain ⟨q₁, hq₁, hq⟩ := Option.bind_eq_some_iff.1 hq
    rw [hq₁] at hrel
    cases hm : s₀.move invoke mv with
    | none => rw [hm] at hrel; cases hrel
    | some s₁ =>
      rw [hm] at hrel
      cases hrel with
      | some h₁ =>
        obtain ⟨M₁, h₁⟩ := h₁
        obtain ⟨after, t, hafter, hrun, hseen, ht, hsettled⟩ := ih h₁ (hs₀.move hm) hacts hq
        have hhides : s₀.hides mv = false := by
          cases mv with
          | run i chosen => exact decide_eq_false (by rw [hplain i]; exact Nat.lt_irrefl 0)
          | _ => rfl
        refine ⟨before ++ mv :: after, t, ?_, ?_, ?_, ht, hsettled⟩
        · rw [List.forall_mem_append]
          exact ⟨hbefore, List.forall_mem_cons.2 ⟨hmv, hafter⟩⟩
        · rw [run_append, hrun₀, Option.bind_some, State.run, hm, Option.bind_some, hrun]
        · rw [seenOn_append hrun₀, hseen₀, seenOn_cons hm, hhides, hseen]
          rfl

end Counts
/-! ## Pools that have just been made -/

/-- The factory loads a script whenever it is asked. -/
def Reliable (maker : Factory σ) : Prop :=
  ∀ n, ∃ name script lines, maker.product n = .loaded name script lines

/-- A caller has a pool made, and nothing else happens. -/
def founding (config : PoolConfig) : List (Move σ) :=
  .begin 0 (.establish 0 (.pool config)) :: List.replicate (config.startCount + 1) (.run 0 0)

/-- The semaphore of a pool that has just been made. -/
def newPool (config : PoolConfig) : Semaphore where
  permits := config.maxActive
  callers := [.finished (.made ⟨1⟩)]

/-- The pool is being made, and nothing else has happened. -/
structure Warming (s : State σ) (config : PoolConfig) (built : List (Context σ)) : Prop where
  managers : s.managers = [none]
  places : s.places = [.warming ⟨1⟩ (.pool config) 0 built]
  clock : s.clock = 0
  unarmed : s.armed = none
  loads : s.Loads 0

theorem Warming.move {config : PoolConfig} {built : List (Context σ)}
    (h : Warming s config built) :
    s.move invoke (.run 0 0) = some (s.warm 0 ⟨1⟩ (.pool config) 0 built) := by
  simp only [State.move, State.step?, h.places, List.getElem?_cons_zero]

/-- The pool is made once all its first contexts are there. -/
theorem Warming.made {config : PoolConfig} {built : List (Context σ)} (h : Warming s config built)
    (hlength : built.length = config.startCount) :
    Counted ⟨1⟩ (s.warm 0 ⟨1⟩ (.pool config) 0 built) (newPool config) := by
  have hdone : ¬built.length < (Plan.pool config).startCount :=
    Nat.not_lt.2 (Nat.le_of_eq hlength.symm)
  rw [State.warm, if_neg hdone]
  dsimp only
  rw [report_unarmed h.unarmed]
  generalize madeEvent _ _ _ _ = event
  have hstate : ((s.record event).setManager ⟨1⟩
      (some (firstManager (.pool config) 0 built))).finish 0 (.made ⟨1⟩) =
        { s.record event with
          managers := [some (firstManager (.pool config) 0 built)]
          places := [.finished (.made ⟨1⟩)] } := by
    simp [State.finish, State.put, State.setManager, State.record, h.places, h.managers]
  dsimp only
  rw [hstate]
  exact ⟨firstManager (.pool config) 0 built, {
    there := rfl
    pool := rfl
    sound := rfl
    permits := rfl
    taken := rfl
    closed := rfl
    clock := h.clock.symm
    callers := rfl
    ordinary := fun p hp => List.mem_singleton.1 hp ▸ trivial
    unarmed := h.unarmed
    loads := h.loads }⟩

/-- Until then one more is built in each step. -/
theorem Warming.next {config : PoolConfig} {built : List (Context σ)} (h : Warming s config built)
    (hlength : built.length < config.startCount) :
    ∃ c, Warming (s.warm 0 ⟨1⟩ (.pool config) 0 built) config (built ++ [c]) := by
  obtain ⟨t, c, hbuild, hmanagers, hplaces, hclock, harmed, hloads⟩ := h.loads.build h.unarmed
  have hmore : built.length < (Plan.pool config).startCount := hlength
  rw [State.warm, if_pos hmore, hbuild]
  dsimp only
  rw [State.put, if_pos (by rw [hplaces, h.places]; exact Nat.zero_lt_one), hplaces, h.places]
  exact ⟨_, hmanagers.trans h.managers, rfl, hclock.trans h.clock, harmed, hloads⟩

theorem Warming.run {config : PoolConfig} {built : List (Context σ)} (h : Warming s config built)
    {n : Nat} (hn : built.length + n = config.startCount)
    (hrun : s.run invoke (List.replicate (n + 1) (.run 0 0)) = some t) :
    Counted ⟨1⟩ t (newPool config) := by
  induction n generalizing s built with
  | zero =>
    rw [List.replicate_one, State.run, h.move, Option.bind_some, State.run] at hrun
    exact Option.some.inj hrun ▸ h.made hn
  | succ n ih =>
    rw [List.replicate_succ, State.run, h.move, Option.bind_some] at hrun
    obtain ⟨c, hnext⟩ := h.next (by omega)
    exact ih hnext (by rw [List.length_append, List.length_singleton]; omega) hrun

/-- **A pool that was made has the semaphore of its size.** -/
theorem counted_of_founding {maker : Factory σ} {config : PoolConfig} (hload : Reliable maker)
    (h : (initial [maker]).run invoke (founding config) = some s) :
    Counted ⟨1⟩ s (newPool config) := by
  obtain ⟨s₁, hm, hrun⟩ := run_cons h
  have hone : s₁ = (initial [maker]).establish 0 0 (.pool config) := (Option.some.inj hm).symm
  -- a caller whose sizes are refused has no turn left
  have hstuck : ∀ (o : Outcome) (s₀ : State σ), s₀.placeOf 0 = .finished o →
      s₀.run invoke (List.replicate (config.startCount + 1) (.run 0 0)) ≠ some s := by
    intro o s₀ ho hrun
    rw [List.replicate_succ] at hrun
    obtain ⟨s₂, hm, -⟩ := run_cons hrun
    obtain ⟨-, u, -, hu, -⟩ | ⟨hnot, -⟩ := move_cases hm 0
    · rw [ho] at hu
      obtain ⟨operation, hbegin, -⟩ := hu.of_finished
      cases hbegin
    · cases hnot
  unfold State.establish at hone
  dsimp only at hone
  split at hone
  · exact absurd (hone ▸ hrun) (hstuck _ _ rfl)
  · split at hone
    · have hstart : Warming s₁ config [] := by
        subst hone
        exact ⟨rfl, rfl, rfl, rfl, maker, rfl, hload⟩
      exact hstart.run (Nat.zero_add _) hrun
    · exact absurd (hone ▸ hrun) (hstuck _ _ rfl)

/-! ## What callers can tell of two pools -/

theorem Counts.outcome? (h : Counts s m M q) (hp : (s.placeOf i).hidden = 0) :
    s.outcome? i = (q.callers[i]?).bind Stance.outcome? := by
  unfold State.outcome?
  rw [h.caller?]
  cases hi : s.places[i]? with
  | none => rfl
  | some p =>
    rw [placeOf_eq hi] at hp
    cases p with
    | evicting | draining => cases hp
    | holding tenure c => cases tenure <;> rfl
    | _ => rfl

/-- Callers cannot tell the pools apart, but by the contexts that they get. -/
structure SameService (m : ManagerId) (s t : State σ) : Prop where
  /-- Every caller is as far: it asks, it sleeps, it was granted a context, it gives one back, or it
  has come to the same outcome, except for steps that are hidden. -/
  stances : s.places.map Place.stance = t.places.map Place.stance
  blocked : s.sleepers m = t.sleepers m
  active : (s.manager? m).map (fun M => M.stats.active) =
    (t.manager? m).map fun M => M.stats.active
  closed : (s.manager? m).map Manager.closed = (t.manager? m).map Manager.closed
  outcomes : ∀ i, (s.placeOf i).hidden = 0 → (t.placeOf i).hidden = 0 →
    s.outcome? i = t.outcome? i

theorem SameService.of_counted (hs : Counted m s q) (ht : Counted m t q) : SameService m s t := by
  obtain ⟨M, hs⟩ := hs
  obtain ⟨M', ht⟩ := ht
  refine ⟨hs.callers.symm.trans ht.callers, hs.sleepers.trans ht.sleepers.symm, ?_, ?_, ?_⟩
  · rw [hs.there, ht.there]
    exact congrArg some (hs.taken.symm.trans ht.taken)
  · rw [hs.there, ht.there]
    exact congrArg some (hs.closed.symm.trans ht.closed)
  · intro i hi hi'
    rw [hs.outcome? hi, ht.outcome? hi']

/-- **An opener of an open pool waits exactly if as many contexts are lent as may be**, wherever a
run leads. -/
theorem Reachable.waits_iff (hs : Reachable invoke s) (hM : s.manager? m = some M)
    (hpool : M.stock.isPool = true) (hp : M.poisoned = false) (hc : M.closed = false) {r : Request}
    (hi : s.placeOf i = .asking r) (hr : r.manager = m) (chosen : Nat) :
    ∃ t, s.move invoke (.run i chosen) = some t ∧
      (¬(t.placeOf i).HasWaited ↔ M.stock.active < M.stock.maxActive) := by
  subst hr
  have hroom := (hs.bounded hM fun _ => false).room
  have hat := mem_places_of_placeOf hi nofun
  obtain ⟨t, hm⟩ : ∃ t, s.move invoke (.run i chosen) = some t := by
    refine ⟨s.ask i r M, ?_⟩
    rw [State.move, State.step?, hat]
    dsimp only
    rw [State.withManager, hM, Option.map_some]
  refine ⟨t, hm, ?_⟩
  obtain ⟨-, u, -, hu, -, hplace⟩ | ⟨hnot, -⟩ := move_cases hm i
  · rw [hi] at hu
    rw [hplace]
    have hsame : ∀ {M₀ : Manager σ}, s.manager? r.manager = some M₀ → M₀ = M := fun h =>
      Option.some.inj (h.symm.trans hM)
    have hlent : ∀ {c : Context σ} {rest : Stock σ}, M.stock.offer = .lent c rest →
        M.stock.active < M.stock.maxActive := by
      intro c rest ho
      have hlength := congrArg List.length (Stock.contexts_of_offer_lent ho)
      rw [List.length_cons] at hlength
      omega
    obtain ⟨_, -, h⟩ := hu.of_asking
    cases h with
    | barred hm hbad =>
      obtain rfl := hsame hm
      rw [hp] at hbad
      cases hbad
    | shutOut hm _ hbad =>
      obtain rfl := hsame hm
      rw [hc] at hbad
      cases hbad
    | lent hm _ _ ho =>
      obtain rfl := hsame hm
      exact iff_of_true (Place.not_hasWaited_served r _) (hlent ho)
    | lentCrash hm _ _ ho =>
      obtain rfl := hsame hm
      exact iff_of_true (fun h => h) (hlent ho)
    | reserved hm _ _ ho =>
      obtain rfl := hsame hm
      exact iff_of_true (fun h => h) (Stock.of_offer_reserved ho).2.1
    | fellAsleep hm _ _ ho =>
      obtain rfl := hsame hm
      exact iff_of_false (not_not_intro trivial)
        (Nat.not_lt.2 ((Stock.of_offer_full ho).2 hpool))
    | timedOut hm _ _ ho =>
      obtain rfl := hsame hm
      exact iff_of_false (not_not_intro trivial)
        (Nat.not_lt.2 ((Stock.of_offer_full ho).2 hpool))
  · rw [Move.isTurnOf, decide_eq_true rfl] at hnot
    cases hnot

/-- Two pools under the same number, in states from which callers go on. -/
structure BlockAlike (invoke : Invoke σ) (m : ManagerId) (s t : State σ) : Prop where
  /-- Runs that differ only in hidden steps leave callers unable to tell the pools apart. -/
  same : ∀ moves moves' s' t', (∀ mv ∈ moves, mv.isOn m = true) →
    (∀ mv ∈ moves', mv.isOn m = true) → s.run invoke moves = some s' →
      t.run invoke moves' = some t' → s.seenOn invoke moves = t.seenOn invoke moves' →
        SameService m s' t'
  /-- Whatever can happen to the one pool can happen to the other one, so that nobody is left with a
  hidden step. -/
  matched : ∀ moves s', (∀ mv ∈ moves, mv.isOn m = true) → s.run invoke moves = some s' →
    ∃ moves' t', (∀ mv ∈ moves', mv.isOn m = true) ∧ t.run invoke moves' = some t' ∧
      t.seenOn invoke moves' = s.seenOn invoke moves ∧ ∀ i, (t'.placeOf i).hidden = 0

/-- **Pools block alike that may lend as many contexts**, however many they start with and keep, and
whatever their factories load.  Take two pools that were just made with the same `maxActive`, and
callers that open contexts, with or without a time limit, give them back, end leases, drop contexts
and shut the pool down, at the same times and with the same sleepers woken.  After every move that
is not hidden the same openers wait, each caller has come to the same, and as many contexts are
lent.  And wherever a run leads, an opener of an open pool goes on without waiting exactly if fewer
than `maxActive` contexts are lent. -/
theorem pools_block_alike {maker maker' : Factory σ} {config config' : PoolConfig}
    (hmax : config.maxActive = config'.maxActive) (hload : Reliable maker)
    (hload' : Reliable maker') (hs : (initial [maker]).run invoke (founding config) = some s)
    (ht : (initial [maker']).run invoke (founding config') = some t) :
    BlockAlike invoke ⟨1⟩ s t ∧
      ∀ (u : State σ) k M i r chosen, Reachable invoke u → u.manager? k = some M →
        M.stock.isPool = true → M.poisoned = false → M.closed = false →
          u.placeOf i = .asking r → r.manager = k → ∃ v, u.move invoke (.run i chosen) = some v ∧
            (¬(v.placeOf i).HasWaited ↔ M.stock.active < M.stock.maxActive) := by
  have hsreach := (reachable_initial invoke [maker]).run hs
  have htreach := (reachable_initial invoke [maker']).run ht
  obtain ⟨M, hM⟩ := counted_of_founding hload hs
  obtain ⟨M', hM'⟩ := counted_of_founding hload' ht
  have hnew : newPool config' = newPool config := by rw [newPool, newPool, hmax]
  rw [hnew] at hM'
  refine ⟨⟨?_, ?_⟩, fun u k M i r chosen hu hk hpool hp hc hi hr =>
    hu.waits_iff hk hpool hp hc hi hr chosen⟩
  · intro moves moves' s' t' hon hon' hrun hrun' hseen
    obtain ⟨q, hq, hcount⟩ := hM.run hsreach hon hrun
    obtain ⟨q', hq', hcount'⟩ := hM'.run htreach hon' hrun'
    rw [hseen] at hq
    obtain rfl := Option.some.inj (hq.symm.trans hq')
    exact .of_counted hcount hcount'
  · intro moves s' hon hrun
    obtain ⟨q, hq, -⟩ := hM.run hsreach hon hrun
    obtain ⟨moves', t', hon', hrun', hseen, -, hzero⟩ :=
      hM'.matched htreach (seenOn_subset hon hrun) hq
    exact ⟨moves', t', hon', hrun', hseen, fun i => Nat.le_zero.1 (hzero ▸ placeOf_le_total rfl i)⟩

/-- The hypotheses are satisfiable: one pool for two starts with two contexts and keeps them, the
other one builds each context when it is asked for and keeps none.  Two callers get contexts, a
third one sleeps until the first one comes back, and a shutdown then finds two contexts lent. -/
theorem pools_block_alike_kept_or_built :
    let before : List (Move Unit) :=
      [.begin 1 (.acquire ⟨1⟩ .hold none), .run 1 0, .begin 2 (.acquire ⟨1⟩ .lease none), .run 2 0,
        .begin 3 (.acquire ⟨1⟩ .hold none), .run 3 0]
    let after : List (Move Unit) :=
      [.handle 1 (.close ⟨1⟩), .run 1 3, .run 3 0, .begin 4 (.shutDown ⟨1⟩), .run 4 0]
    let moves := before ++ after
    let moves' := before ++ .run 1 0 :: .run 1 0 :: after
    ∃ s t s' t' : State Unit, (initial [plain]).run inert (founding ⟨2, 2, 2⟩) = some s ∧
      (initial [plain]).run inert (founding ⟨0, 2, 0⟩) = some t ∧
      s.run inert moves = some s' ∧ t.run inert moves' = some t' ∧ SameService ⟨1⟩ s' t' ∧
      s'.outcome? 1 = some .done ∧ (t'.placeOf 1).stance = .finished .done ∧
      (t'.placeOf 3).stance = .granted .hold ∧
      (t'.placeOf 4).stance = .finished (.failed (.contextsOutstanding 2)) := by
  intro before after moves moves'
  obtain ⟨s, hs⟩ : ∃ s, (initial [plain]).run inert (founding ⟨2, 2, 2⟩) = some s := ⟨_, rfl⟩
  obtain ⟨t, ht⟩ : ∃ t, (initial [plain]).run inert (founding ⟨0, 2, 0⟩) = some t := ⟨_, rfl⟩
  have hload : Reliable plain := fun n => ⟨_, _, _, rfl⟩
  have hmax : (⟨2, 2, 2⟩ : PoolConfig).maxActive = (⟨0, 2, 0⟩ : PoolConfig).maxActive := rfl
  have h := (pools_block_alike hmax hload hload hs ht).1
  have hseen : s.seenOn inert moves = t.seenOn inert moves' := by
    have hkept : ((initial [plain]).run inert (founding ⟨2, 2, 2⟩)).map (seenOn inert · moves) =
        some moves := rfl
    have hbuilt : ((initial [plain]).run inert (founding ⟨0, 2, 0⟩)).map (seenOn inert · moves') =
        some moves := rfl
    rw [hs] at hkept
    rw [ht] at hbuilt
    exact (Option.some.inj hkept).trans (Option.some.inj hbuilt).symm
  have hsame := fun s' t' => h.same moves moves' s' t' (by decide) (by decide)
  obtain rfl := Option.some.inj hs
  obtain rfl := Option.some.inj ht
  exact ⟨_, _, _, _, rfl, rfl, rfl, rfl, hsame _ _ rfl rfl hseen, rfl, rfl, rfl, rfl⟩

end State
end Lending
end HookPool
