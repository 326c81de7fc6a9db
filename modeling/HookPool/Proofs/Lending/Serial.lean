/-
# Calls of hooks are served one after the other

A call of a hook gets a context, changes its script and gives it back.  Calls may be under way at
once, on many contexts and while their managers are shut down; but of those that one context serves
each finds the script that the one before has left, the first one the script that was loaded for the
context, and each comes to what the hook comes to on that script, whatever becomes of the return
(`CalmRun.serialized`).  A manager of one context has all its calls served by that one, so that
what they come to is what they would, made one at a time in the order in which the context was lent.

`callsOn` is the list of the calls of a run in the order in which contexts are lent for them, and
`Serial` is what it means for calls to be served one after the other.
-/
import HookPool.Proofs.Lending.Accounting
import HookPool.Proofs.Lending.Course
import HookPool.Proofs.Lending.Settled

namespace HookPool
namespace Lending

variable {σ : Type}

/-- Scripts that count their calls and reply with the number of those before. -/
def counting : Invoke Nat := fun n _ _ =>
  { script := n + 1, printed := [], reply? := some (.ok (.status (Int64.ofNat n))) }

/-- A factory that loads a script which counts from zero. -/
def counter : Factory Nat :=
  { name := "counter", product := fun _ => .loaded "counter" 0 [] }

/-- A call of a hook that a context has been lent for. -/
structure Service where
  caller : Nat
  manager : ManagerId
  context : ContextId
  hook : String
  arguments : List HookArg
  /-- What the caller has come to by the end of the run; nothing if it is not yet through. -/
  result : Option Outcome

/-- The caller is in the middle of a call with the context, or gives it back. -/
def Place.Serves (id : ContextId) : Place σ → Prop
  | .running _ _ _ c | .returning _ _ c | .evicting _ _ c => c.id = id
  | _ => False

theorem Place.Serves.contexts {p : Place σ} {id : ContextId} (h : p.Serves id) :
    p.isHolding = false ∧ p.contexts.map Context.id = [id] := by
  cases p with
  | running | returning | evicting => exact ⟨rfl, congrArg (fun x => [x]) h⟩
  | _ => cases h

theorem Place.Serves.request? {p : Place σ} {id : ContextId} (h : p.Serves id) :
    p.request? = none := by
  cases p with
  | running | returning | evicting => rfl
  | _ => cases h

/-- The move is the work of a holder with the script of its context. -/
def Move.isUse : Move σ → Bool
  | .use .. => true
  | _ => false

namespace State

variable {invoke : Invoke σ} {s t u : State σ} {mv : Move σ} {moves rest : List (Move σ)}
  {i j n chosen : Nat} {p : Place σ} {up : Upshot σ} {m : ManagerId} {M M' : Manager σ}
  {id : ContextId} {c d : Context σ} {o : Outcome} {call call' : Service} {hook : String}
  {arguments : List HookArg}

/-! ## The calls of a run -/

/-- The call that begins with a move to the state, if one does, before the rest of a run. -/
def begun? (invoke : Invoke σ) (t : State σ) (rest : List (Move σ)) : Move σ → Option Service
  | .run caller _ =>
    match t.placeOf caller with
    | .running m hook arguments c =>
      some ⟨caller, m, c.id, hook, arguments, t.outcomeOn invoke caller rest⟩
    | _ => none
  | _ => none

/-- The calls of a run, in the order in which contexts are lent for them. -/
def callsOn (invoke : Invoke σ) (s : State σ) : List (Move σ) → List Service
  | [] => []
  | mv :: rest =>
    match s.move invoke mv with
    | some t => (t.begun? invoke rest mv).toList ++ t.callsOn invoke rest
    | none => []

/-- The calls are served one after the other, and the first one finds the script: each comes to
what the hook comes to on the script that the one before has left.  The last one may be under way at
the end of the run, and comes to it in any case. -/
def Serial (invoke : Invoke σ) (t : State σ) : σ → List Service → Prop
  | _, [] => True
  | script, call :: rest =>
    let invocation := invoke script call.hook call.arguments
    call.result = some invocation.outcome ∧ Serial invoke t invocation.script rest ∨
      call.result = none ∧ rest = [] ∧ Comes invoke t call.caller invocation.outcome 3

/-- What calls come to that are made one at a time, from a script on. -/
def oneByOne (invoke : Invoke σ) : σ → List Service → List Outcome
  | _, [] => []
  | script, call :: rest =>
    let invocation := invoke script call.hook call.arguments
    invocation.outcome :: oneByOne invoke invocation.script rest

/-- **Calls that are served one after the other come to what they would, made one at a time**, once
all are through. -/
theorem Serial.results {script : σ} {calls : List Service} (h : Serial invoke t script calls)
    (hthrough : ∀ call ∈ calls, call.result ≠ none) :
    calls.map Service.result = (oneByOne invoke script calls).map some := by
  induction calls generalizing script with
  | nil => rfl
  | cons call rest ih =>
    obtain ⟨hnow, hrest⟩ := List.forall_mem_cons.1 hthrough
    obtain ⟨hresult, hserial⟩ | ⟨hresult, -⟩ := h
    · rw [List.map_cons, hresult, ih hserial hrest]
      rfl
    · exact absurd hresult hnow

theorem callsOn_cons (hm : s.move invoke mv = some t) (rest : List (Move σ)) :
    s.callsOn invoke (mv :: rest) =
      (t.begun? invoke rest mv).toList ++ t.callsOn invoke rest := by
  rw [callsOn, hm]

theorem mem_callsOn_cons (hm : s.move invoke mv = some t) :
    call ∈ s.callsOn invoke (mv :: rest) ↔
      t.begun? invoke rest mv = some call ∨ call ∈ t.callsOn invoke rest := by
  rw [callsOn_cons hm, List.mem_append, Option.mem_toList]

theorem begun?_run (h : t.placeOf i = .running m hook arguments c) (rest : List (Move σ)) :
    t.begun? invoke rest (.run i chosen) =
      some ⟨i, m, c.id, hook, arguments, t.outcomeOn invoke i rest⟩ := by
  simp only [begun?, h]

theorem of_begun? (h : t.begun? invoke rest mv = some call) :
    ∃ chosen c, mv = .run call.caller chosen ∧
      t.placeOf call.caller = .running call.manager call.hook call.arguments c ∧
        c.id = call.context := by
  unfold begun? at h
  split at h
  · split at h
    · rename_i hp
      cases h
      exact ⟨_, _, rfl, hp, rfl⟩
    · cases h
  · cases h

/-- **Where a call begins on a run.** -/
theorem CalmRun.of_call (h : CalmRun invoke s moves t) (hcall : call ∈ s.callsOn invoke moves) :
    ∃ before rest u v chosen c, moves = before ++ .run call.caller chosen :: rest ∧
      CalmRun invoke s before u ∧ u.move invoke (.run call.caller chosen) = some v ∧
        CalmRun invoke v rest t ∧ c.id = call.context ∧
          v.placeOf call.caller = .running call.manager call.hook call.arguments c := by
  induction h with
  | nil hc => cases hcall
  | @cons s v t mv moves hc hm hr ih =>
    rcases (mem_callsOn_cons hm).1 hcall with hbegun | hcall
    · obtain ⟨chosen, c, rfl, hp, hid⟩ := of_begun? hbegun
      exact ⟨[], moves, s, v, chosen, c, rfl, .nil hc, hm, hr, hid, hp⟩
    · obtain ⟨before, rest, u, w, chosen, c, rfl, hbefore, hrest⟩ := ih hcall
      exact ⟨mv :: before, rest, u, w, chosen, c, rfl, .cons hc hm hbefore, hrest⟩

/-! ## Runs on which nobody has come to grief -/

/-- A run leads to the state, and nobody has come to grief on it. -/
def Quiet (invoke : Invoke σ) (s : State σ) : Prop :=
  ∃ factories moves, CalmRun invoke (initial factories) moves s

theorem Quiet.calm (hs : Quiet invoke s) : s.Calm := by
  obtain ⟨factories, moves, h⟩ := hs
  exact h.calm_end

theorem Quiet.reachable (hs : Quiet invoke s) : Reachable invoke s := by
  obtain ⟨factories, moves, h⟩ := hs
  exact ⟨factories, moves, h.run⟩

theorem Quiet.run (hs : Quiet invoke s) (h : CalmRun invoke s moves t) : Quiet invoke t := by
  obtain ⟨factories, before, hb⟩ := hs
  exact ⟨factories, before ++ moves, hb.append h⟩

theorem Quiet.move (hs : Quiet invoke s) (hm : s.move invoke mv = some t) (hc : t.Calm) :
    Quiet invoke t :=
  hs.run (.cons hs.calm hm (.nil hc))

theorem Quiet.balanced (hs : Quiet invoke s) (hM : s.manager? m = some M)
    (signalled : Nat → Bool) : ∃ dropped, Balanced dropped M (s.tally signalled m) := by
  obtain ⟨factories, moves, h⟩ := hs
  have hb := h.booked (reachable_initial invoke factories) (booked_initial factories m)
  exact ⟨_, hb.balanced M signalled hM⟩

theorem Quiet.intact (hs : Quiet invoke s) (hM : s.manager? m = some M) :
    Intact invoke false s m where
  reachable := hs.reachable
  calm := hs.calm
  made := hs.reachable.registered.not_fresh hM
  sound M hM := by
    obtain ⟨dropped, hb⟩ := hs.balanced hM fun _ => false
    exact hb.sound
  closed M _ h := nomatch h

/-! ## While a call is under way -/

theorem Comes.mono (h : Comes invoke s i o n) {n' : Nat} (hn : n ≤ n') : Comes invoke s i o n' :=
  ⟨h.only, fun moves t hr ht => h.within moves t hr (Nat.le_trans hn ht), h.ready⟩

theorem mem_idsAt_of_serves (h : (s.placeOf i).Serves id) : id ∈ s.idsAt (.underway i) := by
  obtain ⟨hholding, hids⟩ := h.contexts
  rw [idsAt, if_neg (by rw [hholding]; decide), hids]
  exact List.mem_singleton_self id

theorem Reachable.eq_of_serves (hs : Reachable invoke s) (hi : (s.placeOf i).Serves id)
    (hj : (s.placeOf j).Serves id) : i = j := by
  refine Classical.byContradiction fun hij => ?_
  have hne : Spot.underway i ≠ .underway j := fun h => hij (Spot.underway.inj h)
  exact hs.alone hne (mem_idsAt_of_serves hi) (mem_idsAt_of_serves hj)

/-- A caller has its context until it is through. -/
theorem Turn.serves (h : Turn invoke s i mv p up) (hp : p.Serves id) :
    up.place.Serves id ∨ (∃ o, up.place = .finished o) ∨ ∃ c, up.place = .refused c := by
  cases h with
  | opening h => cases h <;> cases hp
  | givingBack h =>
    cases h with
    | called | undefined | undefinedCrash | turnedAway => exact .inl hp
    | refused => exact .inr (.inr ⟨_, rfl⟩)
    | _ => exact .inr (.inl ⟨_, rfl⟩)
  | stopping h => cases h <;> cases hp
  | making h => cases h <;> cases hp
  | beginning h => cases h <;> cases hp
  | dealing h => cases h <;> cases hp
  | works => cases hp
  | rousing => cases hp

/-- **No other call begins on a context while one is under way**, which comes to what its course
says. -/
theorem CalmRun.under_way (h : CalmRun invoke s moves t) (hs : Intact invoke false s m)
    (hM : s.manager? m = some M) (hid : (s.placeOf i).Serves id)
    (hp : (s.placeOf i).course invoke false m = some (o, n + 1))
    (hnone : s.outcomeOn invoke i moves = none) :
    (∀ call ∈ s.callsOn invoke moves, call.context ≠ id) ∧ Comes invoke t i o (n + 1) := by
  induction h generalizing n M with
  | nil hc => exact ⟨nofun, hs.comes hM hp⟩
  | @cons s t u mv moves hc hm hr ih =>
    have hnot := not_finished_of_course hp
    have hat := mem_places_of_placeOf rfl hnot
    rw [outcomeOn_cons (outcome?_eq_none rfl hnot) hm] at hnone
    obtain ⟨n', hle, hp'⟩ := hs.course_move hm hr.calm_start hp
    obtain ⟨M', hM'⟩ := manager?_of_uses hs.reachable.registered hm hM hat (uses_of_course hp)
    cases n' with
    | zero =>
      have hi : i < t.places.length :=
        Nat.lt_of_lt_of_le (List.getElem?_eq_some_iff.1 hat).1 (length_places_le hm)
      rw [outcomeOn_of_outcome? (outcome?_of_placeOf (finished_of_course hp') hi)] at hnone
      cases hnone
    | succ n' =>
      have hid' : (t.placeOf i).Serves id := by
        obtain ⟨-, up, -, hup, -, hplace⟩ | ⟨-, hplace | ⟨r, hr, -⟩⟩ := move_cases hm i
        · rw [hplace] at hp' ⊢
          obtain hserves | ⟨o', ho⟩ | ⟨c, hc⟩ := hup.serves hid
          · exact hserves
          · exact absurd ho (not_finished_of_course hp' o')
          · rw [hc] at hp'
            cases hp'
        · exact hplace ▸ hid
        · rw [hr] at hid
          cases hid
      obtain ⟨hcalls, hcomes⟩ := ih (hs.move hm hr.calm_start) hM' hid' hp' hnone
      refine ⟨fun call hcall => ?_, hcomes.mono (Nat.le_trans hle (by split <;> omega))⟩
      rcases (mem_callsOn_cons hm).1 hcall with hbegun | hcall
      · obtain ⟨chosen, c, rfl, hrunning, hctx⟩ := of_begun? hbegun
        intro he
        -- the caller of the other call would be the one that is in the middle of its own
        have hother : (t.placeOf call.caller).Serves id := by
          rw [hrunning]
          exact hctx.trans he
        obtain rfl := (hs.reachable.move hm).eq_of_serves hid' hother
        obtain ⟨-, ⟨r, hreq, -⟩, -⟩ := has_of_lent hs.reachable.registered hm hrunning
        rw [hid.request?] at hreq
        cases hreq
      · exact hcalls call hcall

/-! ## The calls that one context serves -/

/-- A context that has ended serves no call. -/
theorem CalmRun.unserved_of_ended (h : CalmRun invoke s moves t) (hs : Reachable invoke s)
    (hid : id ∈ s.ended) : ∀ call ∈ s.callsOn invoke moves, call.context ≠ id := by
  intro call hcall he
  obtain ⟨before, rest, u, v, chosen, c, rfl, hbefore, hm, -, hctx, hp⟩ := h.of_call hcall
  have hu := hs.run hbefore.run
  have hlast : u.run invoke [.run call.caller chosen] = some v := by simp [State.run, hm]
  have hended : id ∈ v.ended := ended_of_run hlast hu (ended_of_run hbefore.run hs hid)
  have hserves : (v.placeOf call.caller).Serves id := by
    rw [hp]
    exact hctx.trans he
  have hne : Spot.underway call.caller ≠ .ended := fun h => by cases h
  exact (hu.move hm).alone hne (mem_idsAt_of_serves hserves) hended

/-- **What becomes of a context in a move**: it is lent for a call, or else stays as it is or
ends. -/
theorem Quiet.next (hs : Quiet invoke s) (hm : s.move invoke mv = some t) (hc : t.Calm)
    (huse : mv.isUse = false) (hd : s.Has invoke d) :
    (∃ i chosen m hook arguments, mv = .run i chosen ∧
        t.placeOf i = .running m hook arguments d) ∨
      (∀ rest call, t.begun? invoke rest mv = some call → call.context ≠ d.id) ∧
        (t.Has invoke d ∨ d.id ∈ t.ended) := by
  have hr := hs.reachable.registered
  have huse' : ∀ i script, mv ≠ .use i script := by
    rintro i script rfl
    cases huse
  by_cases hlend : ∃ i chosen m hook arguments c, mv = .run i chosen ∧
      t.placeOf i = .running m hook arguments c ∧ c.id = d.id
  · obtain ⟨i, chosen, m, hook, arguments, c, rfl, hp, he⟩ := hlend
    obtain rfl := hs.reachable.has_unique (has_of_lent hr hm hp).1 hd he
    exact .inl ⟨i, chosen, m, hook, arguments, rfl, hp⟩
  · refine .inr ⟨fun rest call hbegun he => ?_, ?_⟩
    · obtain ⟨chosen, c, rfl, hp, hctx⟩ := of_begun? hbegun
      exact hlend ⟨_, _, _, _, _, _, rfl, hp, hctx.trans he⟩
    · have hissued := hs.reachable.issued_of_has hd
      have hmade := length_loads? hm hc
      have hissued' : t.Issued d.id := ⟨hissued.1, Nat.le_trans hissued.2 (by omega)⟩
      obtain ⟨e, he, hid⟩ | hended := (hs.reachable.move hm).has_or_ended hissued'
      · obtain he | hborn | ⟨i, chosen, m, hook, arguments, c, rfl, hp, rfl⟩ :=
          has_of_move hr hm hc huse' he
        · exact .inl (hs.reachable.has_unique he hd hid ▸ ‹_›)
        · have hnext : d.id.number = s.contextsMade + 1 := by
            rw [← hid, hborn.id]
            rfl
          exact absurd hissued.2 (by omega)
        · exact absurd ⟨i, chosen, m, hook, arguments, c, rfl, hp, hid⟩ hlend
      · exact .inr hended

theorem filter_eq_nil_of_context (calls : List Service)
    (h : ∀ call ∈ calls, call.context ≠ id) : calls.filter (·.context = id) = [] := by
  simpa using h

/-- **The calls that a context serves from now on are served one after the other**, and the first
one finds the context as it is left now. -/
theorem CalmRun.serial_of_has (h : CalmRun invoke s moves t) (hs : Quiet invoke s)
    (huse : ∀ mv ∈ moves, mv.isUse = false) (hd : s.Has invoke d) :
    Serial invoke t d.script ((s.callsOn invoke moves).filter (·.context = d.id)) := by
  induction h generalizing d with
  | nil hc => trivial
  | @cons s t u mv moves hc hm hr ih =>
    have ht := hs.move hm hr.calm_start
    have huse' := List.forall_mem_cons.1 huse
    obtain ⟨i, chosen, m, hook, arguments, rfl, hp⟩ | ⟨hnot, hrest⟩ :=
      hs.next hm hr.calm_start huse'.1 hd
    · obtain ⟨-, -, M, M', -, hM'⟩ := has_of_lent hs.reachable.registered hm hp
      have hlater := ih ht huse'.2 (d := d.after invoke hook arguments)
        (.inr ⟨i, by rw [hp]; exact List.mem_singleton_self _⟩)
      have hcourse : (t.placeOf i).course invoke false m =
          some ((invoke d.script hook arguments).outcome, 3) := by
        have hmark := ht.reachable.registered.marked_placeOf i
        rw [hp] at hmark ⊢
        exact if_pos ⟨rfl, hmark⟩
      rw [callsOn_cons hm, begun?_run hp, Option.toList_some, List.singleton_append,
        List.filter_cons_of_pos (by exact decide_eq_true rfl)]
      cases hout : t.outcomeOn invoke i moves with
      | some o =>
        obtain rfl := ((ht.intact hM').comes hM' hcourse).only moves u o hr hout
        exact .inl ⟨rfl, hlater⟩
      | none =>
        have hserves : (t.placeOf i).Serves d.id := by
          rw [hp]
          rfl
        obtain ⟨hcalls, hcomes⟩ := hr.under_way (ht.intact hM') hM' hserves hcourse hout
        exact .inr ⟨rfl, filter_eq_nil_of_context _ hcalls, hcomes⟩
    · rw [callsOn_cons hm, List.filter_append, filter_eq_nil_of_context _ fun call hcall =>
        hnot moves call (Option.mem_toList.1 hcall), List.nil_append]
      rcases hrest with hhas | hended
      · exact ih ht huse'.2 hhas
      · rw [filter_eq_nil_of_context _ (hr.unserved_of_ended ht.reachable hended)]
        trivial

/-- The calls that a context serves are made on the manager that lends it. -/
theorem CalmRun.manager_of_call (h : CalmRun invoke s moves t) (hs : Reachable invoke s)
    (hd : s.Has invoke d) (hcall : call ∈ s.callsOn invoke moves) (hctx : call.context = d.id) :
    d.owner = some call.manager := by
  obtain ⟨before, rest, u, v, chosen, c, -, hbefore, hm, -, hid, hp⟩ := h.of_call hcall
  have hu := hs.run hbefore.run
  have howner : c.owner = some call.manager := by
    have hmark := (hu.move hm).registered.marked_placeOf call.caller
    rwa [hp] at hmark
  -- the context was there from the start, as no identity is given out twice
  obtain ⟨e, he, hes⟩ := stamp_of_has hd
  obtain ⟨e', he', hes'⟩ := stamp_of_has (has_of_lent hu.registered hm hp).1
  have hide : e'.id = e.id := (congrArg Prod.fst hes').trans
    ((hid.trans hctx).trans (congrArg Prod.fst hes).symm)
  obtain ⟨e₀, he₀, hes₀⟩ | hnew := stamp_of_run hbefore.run hs e' he'
  · obtain rfl := hs.eq_of_id he₀ he ((congrArg Prod.fst hes₀).trans hide)
    rw [← howner]
    exact congrArg Prod.snd (hes.symm.trans (hes₀.trans hes'))
  · exact absurd (hs.issued_of_mem he).2 (by rw [← hide]; omega)

theorem Reachable.issued_of_begun (hs : Reachable invoke s) (hm : s.move invoke mv = some t)
    (hbegun : t.begun? invoke rest mv = some call) : s.Issued call.context := by
  obtain ⟨chosen, c, rfl, hp, hctx⟩ := of_begun? hbegun
  exact hctx ▸ hs.issued_of_has (has_of_lent hs.registered hm hp).1

/-- **The calls that a context serves which is yet to be made are served one after the other**, and
the first one finds the script that is loaded for the context. -/
theorem CalmRun.serial_of_unmade (h : CalmRun invoke s moves t) (hs : Quiet invoke s)
    (huse : ∀ mv ∈ moves, mv.isUse = false) (hid : s.contextsMade < id.number)
    (hcall : call ∈ s.callsOn invoke moves) (hctx : call.context = id) :
    ∃ script, (s.loadsOn invoke moves)[id.number - s.contextsMade - 1]? = some script ∧
      Serial invoke t script ((s.callsOn invoke moves).filter (·.context = id)) ∧
        ∀ call' ∈ s.callsOn invoke moves, call'.context = id → call'.manager = call.manager := by
  induction h with
  | nil hc => cases hcall
  | @cons s t u mv moves hc hm hr ih =>
    have hreach := hs.reachable
    have ht := hs.move hm hr.calm_start
    have huse' := List.forall_mem_cons.1 huse
    have hmade := length_loads? hm hr.calm_start
    have hnot : ∀ call, t.begun? invoke moves mv = some call → call.context ≠ id := by
      rintro call hbegun rfl
      exact absurd (hreach.issued_of_begun hm hbegun).2 (Nat.not_le.2 hid)
    have hlater : ∀ call ∈ s.callsOn invoke (mv :: moves), call.context = id →
        call ∈ t.callsOn invoke moves := fun call hcall hctx =>
      ((mem_callsOn_cons hm).1 hcall).resolve_left fun hbegun => hnot call hbegun hctx
    have hfilter : (s.callsOn invoke (mv :: moves)).filter (·.context = id) =
        (t.callsOn invoke moves).filter (·.context = id) := by
      rw [callsOn_cons hm, List.filter_append, filter_eq_nil_of_context _ fun call hbegun =>
        hnot call (Option.mem_toList.1 hbegun), List.nil_append]
    rw [hfilter, loadsOn_cons hm]
    by_cases hid' : t.contextsMade < id.number
    · obtain ⟨script, hscript, hserial, howner⟩ := ih ht huse'.2 hid' (hlater call hcall hctx)
      refine ⟨script, ?_, hserial, fun call' hcall' hctx' =>
        howner call' (hlater call' hcall' hctx') hctx'⟩
      rw [List.getElem?_append_right (by omega), ← hscript]
      exact congrArg _ (by omega)
    · have hissued : t.Issued id := ⟨Nat.lt_of_le_of_lt (Nat.zero_le _) hid, by omega⟩
      obtain ⟨d, hd, rfl⟩ | hended := ht.reachable.has_or_ended hissued
      · have hborn : s.Born mv d := by
          obtain hd | hborn | ⟨i, chosen, m, hook, arguments, c, rfl, hp, rfl⟩ :=
            has_of_move hreach.registered hm hr.calm_start (by
              rintro i script rfl
              cases huse'.1) hd
          · exact absurd (hreach.issued_of_has hd).2 (Nat.not_le.2 hid)
          · exact hborn
          · have hc := hreach.issued_of_has (has_of_lent hreach.registered hm hp).1
            exact absurd hc.2 (Nat.not_le.2 hid)
        have hmanager : ∀ call' ∈ s.callsOn invoke (mv :: moves), call'.context = d.id →
            d.owner = some call'.manager := fun call' hcall' hctx' =>
          hr.manager_of_call ht.reachable hd (hlater call' hcall' hctx') hctx'
        refine ⟨d.script, ?_, hr.serial_of_has ht huse'.2 hd, fun call' hcall' hctx' => ?_⟩
        · have hindex : d.id.number - s.contextsMade - 1 = 0 := by
            rw [hborn.id]
            exact Nat.sub_eq_zero_of_le (by simp [nextContext])
          rw [hborn.script, hindex]
          rfl
        · exact Option.some.inj
            ((hmanager call' hcall' hctx').symm.trans (hmanager call hcall hctx))
      · exact absurd hctx
          (hr.unserved_of_ended ht.reachable hended call (hlater call hcall hctx))

/-! ## A manager of one context -/

/-- A manager of one context lends it for every call, and there is no other context of its own. -/
structure Sole (invoke : Invoke σ) (s : State σ) (m : ManagerId) (id : ContextId) : Prop where
  kind : ∀ M, s.manager? m = some M → M.stock.isPool = false
  only : ∀ d, s.Has invoke d → d.owner = some m → d.id = id

/-- A caller with a context of a manager has to do with the manager. -/
theorem claims_of_owner (hp : p.Marked) (hd : d ∈ p.settled invoke) (ho : d.owner = some m) :
    0 < p.holds m ∨ 0 < p.removes m ∨ 0 < p.builds m ∨ 0 < p.warms m := by
  cases p with
  | grown r c =>
    obtain rfl := List.mem_singleton.1 hd
    obtain rfl := Option.some.inj (hp.symm.trans ho)
    exact .inr (.inr (.inl (by simp)))
  | running k hook arguments c =>
    obtain rfl := List.mem_singleton.1 hd
    have ho : c.owner = some m := ho
    exact .inl (by simp [ho])
  | holding tenure c =>
    obtain rfl := List.mem_singleton.1 hd
    exact .inl (by simp [ho])
  | refused c =>
    obtain rfl := List.mem_singleton.1 hd
    exact .inl (by simp [ho])
  | returning k aim c =>
    obtain rfl := List.mem_singleton.1 hd
    exact .inl (by simp [ho])
  | evicting k aim c =>
    obtain rfl := List.mem_singleton.1 hd
    obtain rfl := Option.some.inj (hp.symm.trans ho)
    exact .inr (.inl (by simp))
  | draining k active first contexts =>
    obtain rfl := Option.some.inj ((hp d hd).symm.trans ho)
    have hpos : 0 < contexts.length := List.length_pos_of_mem hd
    exact .inr (.inl (by simpa using hpos))
  | warming k plan factory built =>
    obtain rfl := Option.some.inj ((hp.1 d hd).symm.trans ho)
    exact .inr (.inr (.inr (by simp)))
  | _ => cases hd

/-- **Once a manager of one context has lent one, it has no other.** -/
theorem Quiet.sole (hs : Quiet invoke s) (hM : s.manager? m = some M)
    (hk : M.stock.isPool = false) (hp : s.placeOf i = .running m hook arguments c) :
    Sole invoke s m c.id := by
  have hr := hs.reachable.registered
  have hat := mem_places_of_placeOf hp nofun
  -- it has made one context, and that one is in the hands of the caller
  obtain ⟨held, leaving, building, atHand⟩ : total (Place.holds m) s.places = 1 ∧
      total (Place.removes m) s.places = 0 ∧ total (Place.builds m) s.places = 0 ∧
        M.stock.contexts = [] := by
    obtain ⟨dropped, hb⟩ := hs.balanced hM fun _ => false
    have hbuilding : total (Place.builds m) s.places = 0 :=
      (hs.reachable.bounded hM fun _ => false).grows hk
    have hcreated := hb.single hk
    have hcontexts : M.created + total (Place.builds m) s.places = M.destroyed +
      total (Place.removes m) s.places + M.stock.contexts.length + M.stock.active := hb.contexts
    have hactive : M.stock.active =
      total (Place.holds m) s.places + dropped + total (Place.builds m) s.places := hb.active
    have hholds : 1 ≤ total (Place.holds m) s.places := by
      have hmark := hr.marked _ (List.mem_of_getElem? hat)
      have hone : (Place.running m hook arguments c).holds m = 1 := if_pos hmark
      exact hone ▸ le_total (Place.holds m) (List.mem_of_getElem? hat)
    exact ⟨by omega, by omega, hbuilding, List.eq_nil_of_length_eq_zero (by omega)⟩
  refine ⟨fun M' hM' => Option.some.inj (hM.symm.trans hM') ▸ hk, fun d hd ho => ?_⟩
  obtain ⟨k, hd⟩ | ⟨j, hd⟩ := hd
  · cases hM' : s.manager? k with
    | none => rw [hM'] at hd; cases hd
    | some M' =>
      rw [hM'] at hd
      obtain rfl := Option.some.inj ((hr.stocked k M' hM' d hd).symm.trans ho)
      obtain rfl := Option.some.inj (hM.symm.trans hM')
      rw [contextsUnder, atHand] at hd
      cases hd
  · by_cases hji : j = i
    · subst hji
      rw [hp] at hd
      obtain rfl := List.mem_singleton.1 hd
      rfl
    · have hat' : s.places[j]? = some (s.placeOf j) := mem_places_of_placeOf rfl fun o hfin => by
        rw [hfin] at hd
        cases hd
      have hmem := List.mem_of_getElem? hat'
      rcases claims_of_owner (hr.marked _ hmem) hd ho with h | h | h | h
      · have hboth := add_le_total (Place.holds m) hji hat' hat
        have hone : (Place.running m hook arguments c).holds m = 1 :=
          if_pos (hr.marked _ (List.mem_of_getElem? hat))
        omega
      · exact absurd (le_total (Place.removes m) hmem) (by omega)
      · exact absurd (le_total (Place.builds m) hmem) (by omega)
      · exact absurd (hr.warms_eq_zero hM j) (Nat.pos_iff_ne_zero.1 h)

/-- A manager of one context makes no other one. -/
theorem Sole.move (h : Sole invoke s m id) (hs : Quiet invoke s) (hM : s.manager? m = some M)
    (hm : s.move invoke mv = some t) (hc : t.Calm) (huse : mv.isUse = false) :
    Sole invoke t m id := by
  have hr := hs.reachable.registered
  refine ⟨fun M' hM' => ?_, fun d hd ho => ?_⟩
  · have he := ledger_step hr hm hM hM' fun _ => false
    rw [Stock.isPool_congr he.config?_eq]
    exact h.kind M hM
  · obtain hd | hborn | ⟨i, chosen, k, hook, arguments, c, rfl, hp, rfl⟩ :=
      has_of_move hr hm hc (by rintro i script rfl; cases huse) hd
    · exact h.only d hd ho
    · obtain ⟨i, hbuilds | hwarms⟩ := hborn.owner m ho
      · have hle := placeOf_le_total (s := s) (f := Place.builds m) rfl i
        have hnone : total (Place.builds m) s.places = 0 :=
          (hs.reachable.bounded hM fun _ => false).grows (h.kind M hM)
        omega
      · exact absurd (hr.warms_eq_zero hM i) (Nat.pos_iff_ne_zero.1 hwarms)
    · exact h.only c (has_of_lent hr hm hp).1 ho

/-- Calls are made on a manager only while it is there. -/
theorem CalmRun.no_call_of_gone (h : CalmRun invoke s moves t) (hs : Reachable invoke s)
    (hf : ¬s.Fresh m) (hM : s.manager? m = none) :
    ∀ call ∈ s.callsOn invoke moves, call.manager ≠ m := by
  rintro call hcall rfl
  obtain ⟨before, rest, u, v, chosen, c, -, hbefore, hm, -, -, hp⟩ := h.of_call hcall
  obtain ⟨-, -, M, M', hM', -⟩ :=
    has_of_lent (hs.run hbefore.run).registered hm hp
  rw [gone_of_run hs hf hM hbefore.run] at hM'
  cases hM'

/-- **A manager of one context has every later call served by that one.** -/
theorem CalmRun.context_of_call (h : CalmRun invoke s moves t) (hs : Quiet invoke s)
    (huse : ∀ mv ∈ moves, mv.isUse = false) (hM : s.manager? m = some M)
    (hsole : Sole invoke s m id) :
    ∀ call ∈ s.callsOn invoke moves, call.manager = m → call.context = id := by
  induction h generalizing M with
  | nil hc => exact nofun
  | @cons s t u mv moves hc hm hr ih =>
    intro call hcall hmanager
    have ht := hs.move hm hr.calm_start
    have huse' := List.forall_mem_cons.1 huse
    have hsole' := hsole.move hs hM hm hr.calm_start huse'.1
    rcases (mem_callsOn_cons hm).1 hcall with hbegun | hcall
    · obtain ⟨chosen, c, rfl, hp, hctx⟩ := of_begun? hbegun
      rw [hmanager] at hp
      have howner : c.owner = some m := by
        have hmark := ht.reachable.registered.marked_placeOf call.caller
        rwa [hp] at hmark
      exact hctx.symm.trans
        (hsole.only c (has_of_lent hs.reachable.registered hm hp).1 howner)
    · cases hM' : t.manager? m with
      | none =>
        have hf : ¬t.Fresh m := fun hf =>
          hs.reachable.registered.not_fresh hM (hf.of_move hm)
        exact absurd hmanager (hr.no_call_of_gone ht.reachable hf hM' call hcall)
      | some M' => exact ih ht huse'.2 hM' hsole' call hcall hmanager

/-- At some time on a run, the manager is one of a single context. -/
def SingleOn (invoke : Invoke σ) (s : State σ) (moves : List (Move σ)) (m : ManagerId) : Prop :=
  ∃ before rest u M, moves = before ++ rest ∧ s.run invoke before = some u ∧
    u.manager? m = some M ∧ M.stock.isPool = false

/-- **A manager stays of its kind.** -/
theorem isPool_of_run (hs : Reachable invoke s) (hM : s.manager? m = some M)
    (h : s.run invoke moves = some t) (hM' : t.manager? m = some M') :
    M'.stock.isPool = M.stock.isPool := by
  suffices hrun : Reachable invoke t ∧ ¬t.Fresh m ∧
      ∀ M', t.manager? m = some M' → M'.stock.isPool = M.stock.isPool from hrun.2.2 M' hM'
  refine run_induction (P := fun t => Reachable invoke t ∧ ¬t.Fresh m ∧
    ∀ M', t.manager? m = some M' → M'.stock.isPool = M.stock.isPool) ?_
    ⟨hs, hs.registered.not_fresh hM, fun M' hM' => by rw [Option.some.inj (hM.symm.trans hM')]⟩ h
  rintro s t mv ⟨hs, hf, hkind⟩ hm
  refine ⟨hs.move hm, fun hf' => hf (hf'.of_move hm), fun M₂ hM₂ => ?_⟩
  cases hM₁ : s.manager? m with
  | none => exact absurd (ledger_start hs.registered hm hM₁ hM₂ fun _ => false).1 hf
  | some M₁ =>
    have he := ledger_step hs.registered hm hM₁ hM₂ fun _ => false
    rw [Stock.isPool_congr he.config?_eq]
    exact hkind M₁ hM₁

/-- A manager that is one of a single context at some time is so whenever it is there. -/
theorem SingleOn.isPool (h : s.SingleOn invoke moves m) (hs : Reachable invoke s)
    {before : List (Move σ)} (hmoves : moves = before ++ rest)
    (hu : s.run invoke before = some u) (hM : u.manager? m = some M) :
    M.stock.isPool = false := by
  obtain ⟨before', rest', u', M', hmoves', hu', hM', hk⟩ := h
  -- one of the two states comes after the other one
  obtain ⟨between, rfl, -⟩ | ⟨between, rfl, -⟩ :=
    List.append_eq_append_iff.1 (hmoves.symm.trans hmoves')
  · rw [run_append, hu, Option.bind_some] at hu'
    exact (isPool_of_run (hs.run hu) hM hu' hM').symm.trans hk
  · rw [run_append, hu', Option.bind_some] at hu
    exact (isPool_of_run (hs.run hu') hM' hu hM).trans hk

/-- **All calls on a manager of one context are served by the same one.** -/
theorem CalmRun.one_context (h : CalmRun invoke s moves t) (hs : Quiet invoke s)
    (huse : ∀ mv ∈ moves, mv.isUse = false)
    (hk : ∀ before rest u M, moves = before ++ rest → s.run invoke before = some u →
      u.manager? m = some M → M.stock.isPool = false) :
    ∃ id, ∀ call ∈ s.callsOn invoke moves, call.manager = m → call.context = id := by
  induction h with
  | nil hc => exact ⟨⟨0⟩, nofun⟩
  | @cons s t u mv moves hc hm hr ih =>
    have ht := hs.move hm hr.calm_start
    have huse' := List.forall_mem_cons.1 huse
    have hk' : ∀ before rest u M, moves = before ++ rest → t.run invoke before = some u →
        u.manager? m = some M → M.stock.isPool = false := by
      rintro before rest u M rfl hu hM
      exact hk (mv :: before) rest u M rfl (by rw [State.run, hm, Option.bind_some, hu]) hM
    by_cases hbegun : ∃ call, t.begun? invoke moves mv = some call ∧ call.manager = m
    · -- from its first call on the manager has no other context
      obtain ⟨call, hbegun, rfl⟩ := hbegun
      obtain ⟨chosen, c, rfl, hp, hctx⟩ := of_begun? hbegun
      obtain ⟨-, -, M, M', -, hM'⟩ := has_of_lent hs.reachable.registered hm hp
      have hsole := ht.sole hM' (hk' [] moves t M' rfl rfl hM') hp
      refine ⟨c.id, fun call' hcall' hmanager => ?_⟩
      rcases (mem_callsOn_cons hm).1 hcall' with hbegun' | hcall'
      · obtain rfl := Option.some.inj (hbegun.symm.trans hbegun')
        exact hctx.symm
      · exact hr.context_of_call ht huse'.2 hM' hsole call' hcall' hmanager
    · obtain ⟨id, hid⟩ := ih ht huse'.2 hk'
      refine ⟨id, fun call hcall hmanager => ?_⟩
      rcases (mem_callsOn_cons hm).1 hcall with hnow | hcall
      · exact absurd ⟨call, hnow, hmanager⟩ hbegun
      · exact hid call hcall hmanager

/-! ## All calls -/

/-- The calls of a run that leads to `t` are served one after the other. -/
structure Serialized (invoke : Invoke σ) (s : State σ) (moves : List (Move σ)) (t : State σ) :
    Prop where
  /-- Those of one context, from the script on that was loaded for it. -/
  each : ∀ call ∈ s.callsOn invoke moves, ∃ script,
    (s.loadsOn invoke moves)[call.context.number - 1]? = some script ∧
      Serial invoke t script ((s.callsOn invoke moves).filter (·.context = call.context))
  /-- And all those on a manager of one context. -/
  single : ∀ m, s.SingleOn invoke moves m → ∀ calls,
    calls = (s.callsOn invoke moves).filter (·.manager = m) → calls ≠ [] → ∃ id script,
      (∀ call ∈ calls, call.context = id) ∧
      (s.loadsOn invoke moves)[id.number - 1]? = some script ∧ Serial invoke t script calls ∧
      ((∀ call ∈ calls, call.result ≠ none) →
        calls.map Service.result = (oneByOne invoke script calls).map some)

/-- **Calls of hooks are serializable.**  On any run on which nobody comes to grief and scripts
change only through calls, however the callers take turns and whatever is shut down meanwhile, the
calls that one context serves are served one after the other, in the order in which it is lent; and
so are all the calls on a manager of one context, by the same one. -/
theorem CalmRun.serialized {factories : List (Factory σ)}
    (h : CalmRun invoke (initial factories) moves t) (huse : ∀ mv ∈ moves, mv.isUse = false) :
    Serialized invoke (initial factories) moves t := by
  have hs : Quiet invoke (initial factories) := ⟨factories, [], .nil h.calm_start⟩
  have hserial : ∀ call ∈ (initial factories).callsOn invoke moves, ∃ script,
      ((initial factories).loadsOn invoke moves)[call.context.number - 1]? = some script ∧
        Serial invoke t script (((initial factories).callsOn invoke moves).filter
          (·.context = call.context)) ∧
        ∀ call' ∈ (initial factories).callsOn invoke moves, call'.context = call.context →
          call'.manager = call.manager := by
    intro call hcall
    obtain ⟨before, rest, u, v, chosen, c, -, hbefore, hm, -, hctx, hp⟩ := h.of_call hcall
    have hu := hs.reachable.run hbefore.run
    have hissued := hu.issued_of_has (has_of_lent hu.registered hm hp).1
    exact h.serial_of_unmade hs huse (hctx ▸ hissued.1) hcall rfl
  refine ⟨fun call hcall => ?_, ?_⟩
  · obtain ⟨script, hscript, hcalls, -⟩ := hserial call hcall
    exact ⟨script, hscript, hcalls⟩
  · rintro m hsingle calls rfl hne
    obtain ⟨first, hfirst⟩ := List.exists_mem_of_ne_nil _ hne
    obtain ⟨hfirst, hmanager⟩ := List.mem_filter.1 hfirst
    rw [decide_eq_true_eq] at hmanager
    obtain ⟨script, hscript, hcalls, hmanagers⟩ := hserial first hfirst
    obtain ⟨id, hid⟩ := h.one_context hs huse fun before rest u M hmoves hu hM =>
      hsingle.isPool hs.reachable hmoves hu hM
    obtain rfl := hid first hfirst hmanager
    have hsame : ∀ call ∈ (initial factories).callsOn invoke moves,
        decide (call.manager = m) = decide (call.context = first.context) := fun call hcall =>
      decide_eq_decide.2
        ⟨hid call hcall, fun hctx => (hmanagers call hcall hctx).trans hmanager⟩
    rw [List.filter_congr hsame]
    refine ⟨first.context, script, fun call hcall => ?_, hscript, hcalls, hcalls.results⟩
    exact of_decide_eq_true (List.mem_filter.1 hcall).2

/-- The hypothesis is satisfiable: of two calls on a manager of one context, the second one is under
way while the manager is shut down, and its context is then turned away. -/
theorem serialized_while_shut_down :
    let moves : List (Move Nat) :=
      [.begin 0 (.establish 0 .single), .run 0 0, .run 0 0,
        .begin 1 (.acquire ⟨1⟩ (.call "read" []) none),
        .begin 2 (.acquire ⟨1⟩ (.call "write" []) none),
        .run 1 0, .run 2 0, .run 1 0, .run 1 2, .run 2 0, .begin 3 (.shutDown ⟨1⟩), .run 3 0,
        .run 2 0, .run 2 0, .run 2 0]
    ∃ t : State Nat, CalmRun counting (initial [counter]) moves t ∧
      (∀ mv ∈ moves, mv.isUse = false) ∧
      (initial [counter]).callsOn counting moves =
        [⟨1, ⟨1⟩, ⟨1⟩, "read", [], some (.replied (.status 0))⟩,
          ⟨2, ⟨1⟩, ⟨1⟩, "write", [], some (.replied (.status 1))⟩] ∧
      (initial [counter]).SingleOn counting moves ⟨1⟩ ∧
      Serialized counting (initial [counter]) moves t := by
  intro moves
  have h : CalmRun counting (initial [counter]) moves _ :=
    .cons (by decide) rfl (.cons (by decide) rfl (.cons (by decide) rfl (.cons (by decide) rfl
      (.cons (by decide) rfl (.cons (by decide) rfl (.cons (by decide) rfl (.cons (by decide) rfl
        (.cons (by decide) rfl (.cons (by decide) rfl (.cons (by decide) rfl (.cons (by decide) rfl
          (.cons (by decide) rfl (.cons (by decide) rfl (.cons (by decide) rfl
            (.nil (by decide))))))))))))))))
  have huse : ∀ mv ∈ moves, mv.isUse = false := by decide
  exact ⟨_, h, huse, rfl, ⟨moves.take 3, moves.drop 3, _, _, rfl, rfl, rfl, rfl⟩,
    h.serialized huse⟩

end State
end Lending
end HookPool
