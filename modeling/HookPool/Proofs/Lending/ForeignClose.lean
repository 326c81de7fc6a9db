/-
# Closing a context on the wrong manager

A manager takes back what it has lent, and that alone.  Whoever closes a context on the manager whose
stamp it bears comes through without having to wait; whoever closes any other context has it back as
it was, and nothing else has happened (`Verdict`).

So such closes may be put into a run wherever somebody holds a context.  `Padded` is a list of moves
with closes of foreign contexts put in, each one refused and taken up again, in pieces between which
others go on.  `Padded.unseen` says that the run with them goes as the one without: all callers but
those who are on a detour are where they would be, all managers are as they would be, and there are
more refusals among the events.
-/
import HookPool.Proofs.Lending.Detour
import HookPool.Proofs.Lending.Ledger
import HookPool.Proofs.Lending.Quiet

namespace HookPool
namespace Lending

variable {σ : Type}

/-- The event of a context that was given to a manager which has not lent it. -/
def Event.isRefusal : Event → Bool
  | .notLentHere .. => true
  | _ => false

/-- The detours once a caller is on another one. -/
def Detour.set (d : Nat → Detour) (i : Nat) (detour : Detour) : Nat → Detour :=
  fun k => if k = i then detour else d k

namespace State

variable {invoke : Invoke σ} {s s' t t' : State σ} {mv : Move σ} {moves padded : List (Move σ)}
  {i chosen : Nat} {p : Place σ} {u : Upshot σ} {m : ManagerId} {M : Manager σ} {c : Context σ}
  {d d' : Nat → Detour}

/-! ## What comes of a close -/

/-- **What an opener has in its hands bears the stamp of its manager.** -/
theorem Turn.stamped (hr : s.Registered) (h : Turn invoke s i mv p u) (hp : p.Marked)
    {r : Request} (hreq : p.request? = some r) (hc : c ∈ u.place.contexts) :
    c.owner = some r.manager := by
  have hserved : ∀ {r : Request} {c d : Context σ}, c ∈ (r.served d).contexts → c = d := by
    intro r c d hc
    unfold Request.served at hc
    split at hc <;> exact List.mem_singleton.1 hc
  cases h with
  | opening h =>
    cases h with
    | lent hM _ _ ho =>
      obtain rfl := Option.some.inj hreq
      obtain rfl := hserved hc
      exact hr.owner_of_lent hM ho
    | counted hM =>
      obtain rfl := Option.some.inj hreq
      obtain rfl := hserved hc
      exact hp
    | built hM hb hi =>
      obtain rfl := Option.some.inj hreq
      obtain rfl := List.mem_singleton.1 hc
      rfl
    | _ => cases hc
  | givingBack h => cases h <;> cases hreq
  | stopping h => cases h <;> cases hreq
  | making h => cases h <;> cases hreq
  | beginning h => cases h <;> cases hreq
  | dealing h => cases h <;> cases hreq
  | works => cases hreq
  | rousing => cases hc

/-- What comes of closing a context `c` on a manager `m` in a state, for the caller `i` that is
about to have the lock. -/
structure Verdict (invoke : Invoke σ) (s : State σ) (i : Nat) (m : ManagerId) (M : Manager σ)
    (c : Context σ) : Prop where
  /-- The caller never has to wait for anything. -/
  ready : ∀ chosen, ∃ t, s.move invoke (.run i chosen) = some t
  /-- The manager takes back what bears its stamp, be it closed or not and however many wait: it
  keeps the context or destroys it, and the close goes well unless the sink panics. -/
  own : c.owner = some m → M.poisoned = false → ∀ chosen t,
    s.move invoke (.run i chosen) = some t →
      t.placeOf i = .finished .done ∨
      (t.placeOf i = .evicting m .close c ∧
        Ends invoke t i (fun o => o = .done ∨ o = .panicked sinkPayload) 1) ∨
      (s.armed ≠ none ∧ t.placeOf i = .finished (.panicked sinkPayload))
  /-- It refuses whatever else there is, with no effect but an event: the holder takes up again what
  it has held. -/
  foreign : c.owner ≠ some m → (s.report (.notLentHere c.id m)).2 = false → ∀ chosen,
    s.move invoke (.run i chosen) = some ((s.record (.notLentHere c.id m)).put i (.refused c)) ∧
    ((s.record (.notLentHere c.id m)).put i (.refused c)).move invoke (.handle i .recover) =
      some ((s.record (.notLentHere c.id m)).put i (.holding .direct c))

theorem put_put (hi : i < s.places.length) (p q : Place σ) : (s.put i p).put i q = s.put i q := by
  simp [put, hi]

/-- **Who turns a context away that it does not keep ends with its return.** -/
theorem Reachable.ends_evicting (hs : Reachable invoke s) (hM : s.manager? m = some M)
    (hi : s.placeOf i = .evicting m .close c) :
    Ends invoke s i (fun o => o = .done ∨ o = .panicked sinkPayload) 1 := by
  refine Ends.of_place (m := m) (I := Reachable invoke) (fun _ h => h) (fun _ _ _ h hm => h.move hm)
    rfl (by simp [Place.uses]) ?_ hs hM hi
  intro s mv u _ hu
  obtain ⟨_, -, hu⟩ := hu.of_evicting
  cases hu with
  | evicted _ h => exact ⟨_, rfl, h.symm⟩

/-- **A close on the right manager comes through, one on a wrong manager is refused.** -/
theorem Reachable.verdict (hs : Reachable invoke s) (hM : s.manager? m = some M)
    (hi : s.placeOf i = .returning m .close c) : Verdict invoke s i m M c := by
  have hat := mem_places_of_placeOf hi nofun
  have hlt := (List.getElem?_eq_some_iff.1 hat).1
  have hstep : ∀ chosen,
      s.move invoke (.run i chosen) = some (s.giveBack i m .close c M chosen) := by
    intro chosen
    simp only [State.move, step?, hat, withManager, hM, Option.map_some]
  refine ⟨fun chosen => ⟨_, hstep chosen⟩, fun ho hp chosen t ht => ?_, fun ho hq chosen => ⟨?_, ?_⟩⟩
  · obtain ⟨-, u, -, hu, hf, hplace⟩ | ⟨hturn, -⟩ := move_cases ht i
    · rw [hi] at hu
      have hman := hs.registered.manager? (hi ▸ hu) hf m
      obtain ⟨_, -, hu⟩ := hu.of_returning
      cases hu with
      | refused _ hne => exact absurd ho hne
      | refusedEnd _ hne => exact absurd ho hne
      | barred hM₀ _ hbad =>
        obtain rfl := Option.some.inj (hM.symm.trans hM₀)
        rw [hp] at hbad
        cases hbad
      | kept => exact .inl hplace
      | keptCrash =>
        refine .inr (.inr ⟨fun ha => ?_, hplace⟩)
        -- a sink that is not armed leaves no such way out
        obtain ⟨s₁, hs₁, hsame⟩ := takeBack_unarmed ha i m .close c M chosen
        have hback : s.giveBack i m .close c M chosen = s.takeBack i m .close c M chosen := by
          rw [giveBack, if_neg (not_not_intro ho), if_neg (by rw [hp]; decide)]
        rw [hstep, hback, hs₁] at ht
        obtain rfl := Option.some.inj ht
        rw [placeOf_put (by rw [hsame.length]; exact Nat.le_of_lt hlt)] at hplace
        split at hplace <;> cases hplace
      | turnedAway =>
        rw [Shift.lookUp, if_pos rfl] at hman
        exact .inr (.inl ⟨hplace, (hs.move ht).ends_evicting hman hplace⟩)
    · simp [Move.isTurnOf] at hturn
  · rw [hstep, giveBack_foreign ho hq]
  · have hlt' : i < (s.record (.notLentHere c.id m)).places.length := hlt
    have hplace : ((s.record (.notLentHere c.id m)).put i (.refused c)).places[i]? =
        some (.refused c) := by
      rw [places_put, getElem?_putAt (Nat.le_of_lt hlt'), if_pos rfl]
    simp only [State.move, handle?, hplace]
    rw [put_put hlt']

/-! ## States that differ by detours -/

theorem place?_of_holding (hi : s.placeOf i = .holding .direct c) :
    s.places[i]? = some (.holding .direct c) :=
  mem_places_of_placeOf hi nofun

/-- The state `t` is `s` with callers on detours, and more contexts were refused on the way. -/
structure Astray (d : Nat → Detour) (s t : State σ) : Prop where
  managers : t.managers = s.managers
  places : t.places = s.places.mapIdx fun i => Place.detoured (d i)
  factories : t.factories = s.factories
  contextsMade : t.contextsMade = s.contextsMade
  clock : t.clock = s.clock
  armed : t.armed = s.armed
  printed : t.printed = s.printed
  reported : s.events.Sublist t.events
  /-- What is more among the events are refusals. -/
  refusals : t.events.filter (!·.isRefusal) = s.events.filter (!·.isRefusal)

namespace Astray

theorem refl (s : State σ) : Astray (fun _ => .home) s s := by
  refine ⟨rfl, ?_, rfl, rfl, rfl, rfl, rfl, .refl _, rfl⟩
  apply List.ext_getElem?
  intro k
  rw [List.getElem?_mapIdx]
  cases s.places[k]? with
  | none => rfl
  | some p => exact congrArg some (Place.detoured_home p).symm

/-- Two such states differ from one without events by what was reported before. -/
theorem eq_detoured (h : Astray d s t) : t = ({ s with events := [] } : State σ).detoured d t.events := by
  obtain ⟨hm, hp, hf, hc, hk, ha, hpr, -, -⟩ := h
  cases t
  simp only at hm hp hf hc hk ha hpr
  subst hm hp hf hc hk ha hpr
  simp [detoured]

/-- **Both make the same move**, if the caller is at home. -/
theorem move (h : Astray d s s') (hm : s.move invoke mv = some t)
    (hd : ∀ i, mv.isTurnOf i = true → d i = .home)
    (hdrop : ∀ i m, mv = .begin i (.dropManager m) → ∀ k, d k ≠ .asking m) :
    ∃ t', s'.move invoke mv = some t' ∧ Astray d t t' := by
  -- what happens to the state without events happens to both
  have hs := (Astray.refl s).eq_detoured
  rw [hs, move_detoured _ _ _ invoke (fun _ _ => rfl) (fun _ _ _ _ => nofun)] at hm
  obtain ⟨t₀, ht₀, rfl⟩ := Option.map_eq_some_iff.1 hm
  have hs' := h.eq_detoured
  refine ⟨t₀.detoured d s'.events, ?_, ?_⟩
  · rw [hs', move_detoured _ _ _ invoke hd hdrop, ht₀]
    rfl
  · have hplaces : (t₀.detoured (fun _ => .home) s.events).places = t₀.places :=
      (Astray.refl t₀).places.symm
    refine ⟨rfl, ?_, rfl, rfl, rfl, rfl, rfl, ?_, ?_⟩
    · rw [hplaces]
      rfl
    · exact List.Sublist.append (.refl _) h.reported
    · simp only [detoured, List.filter_append, h.refusals]

/-- A holder goes on a detour, or further, or is back. -/
theorem detour (h : Astray d s t) (hi : s.placeOf i = .holding .direct c) (detour : Detour) :
    Astray (Detour.set d i detour) s
      (t.put i ((Place.holding .direct c).detoured detour)) := by
  have hat := place?_of_holding hi
  have hlt := (List.getElem?_eq_some_iff.1 hat).1
  have hlt' : i < t.places.length := by rw [h.places, List.length_mapIdx]; exact hlt
  rw [put, if_pos hlt']
  refine { h with places := ?_ }
  apply List.ext_getElem?
  intro k
  simp only [List.getElem?_set, List.getElem?_mapIdx, Detour.set, h.places]
  by_cases hk : i = k
  · subst hk
    simp only [if_true, List.length_mapIdx, hlt, hat, Option.map_some]
  · simp [hk, Ne.symm hk]

theorem record (h : Astray d s t) (k : ContextId) (m : ManagerId) :
    Astray d s (t.record (.notLentHere k m)) :=
  { h with reported := h.reported.cons _, refusals := h.refusals }

theorem report_eq (h : Astray d s t) (e : Event) : (t.report e).2 = (s.report e).2 := by
  unfold report
  rw [h.armed]
  split
  · split <;> rfl
  · rfl

theorem place? (h : Astray d s t) (i : Nat) :
    t.places[i]? = (s.places[i]?).map (Place.detoured (d i)) := by
  rw [h.places, List.getElem?_mapIdx]

/-- **Everybody has come to what it would have come to.** -/
theorem outcome?_eq (h : Astray d s t) (i : Nat) : t.outcome? i = s.outcome? i := by
  rw [outcome?, outcome?, h.place?]
  cases s.places[i]? with
  | none => rfl
  | some p =>
    cases p with
    | holding tenure c =>
      cases tenure with
      | direct => cases d i <;> rfl
      | leased k => rw [Option.map_some, Place.detoured_of_isStill rfl]
    | _ => rw [Option.map_some, Place.detoured_of_isStill rfl]

theorem manager?_eq (h : Astray d s t) (m : ManagerId) : t.manager? m = s.manager? m :=
  manager?_of_managers_eq h.managers m

/-- **Those who sleep are those who would sleep.** -/
theorem sleepers_eq (h : Astray d s t) (m : ManagerId) : t.sleepers m = s.sleepers m := by
  rw [h.eq_detoured, sleepers_detoured]
  rfl

/-- **The same contexts have come to their end.** -/
theorem ended_eq (h : Astray d s t) : t.ended = s.ended := by
  have hsame : ∀ events : List Event, events.filterMap Event.ended? =
      (events.filter (!·.isRefusal)).filterMap Event.ended? := by
    intro events
    rw [List.filterMap_filter]
    congr 1
    funext e
    cases e <;> rfl
  rw [State.ended, State.ended, hsame, hsame s.events, h.refusals]

end Astray

/-! ## Runs with refused closes put in -/

/-- **A manager goes only when it is dropped.** -/
theorem manager?_of_not_dropped (hr : s.Registered) (hm : s.move invoke mv = some t)
    (hM : s.manager? m = some M) (hdrop : ∀ i, mv ≠ .begin i (.dropManager m)) :
    ∃ M', t.manager? m = some M' := by
  obtain ⟨k, v, -, hv, hf⟩ | hidle := move_turn hm
  · rw [hr.manager? hv hf, hM]
    cases hs : v.shift with
    | keep => exact ⟨M, rfl⟩
    | number => exact ⟨M, rfl⟩
    | replace m' manager =>
      by_cases hk : m = m'
      · subst hk
        cases manager with
        | some M' => exact ⟨M', by simp [Shift.lookUp]⟩
        | none =>
          obtain ⟨caller, rfl⟩ := hv.dropped hs
          exact absurd rfl (hdrop caller)
      · exact ⟨M, by simp [Shift.lookUp, hk]⟩
  · exact ⟨M, by rw [manager?_of_managers_eq hidle.managers, hM]⟩

/-- Lists of moves with closes of foreign contexts put in.  `Padded invoke d s moves padded d' t` says
that `moves` lead from `s` to `t`, and `padded` are the same moves and besides them, for callers that
hold a context all the while, the turns of closes on managers whose stamp it does not bear; the
callers are on the detours `d` at the start and `d'` at the end.  A manager is not dropped while it
is asked, and the sink does not panic at a refusal. -/
inductive Padded (invoke : Invoke σ) : (Nat → Detour) → State σ → List (Move σ) → List (Move σ) →
    (Nat → Detour) → State σ → Prop where
  | nil {d : Nat → Detour} {s : State σ} : Padded invoke d s [] [] d s
  | move {d d' : Nat → Detour} {s t u : State σ} {mv : Move σ} {moves padded : List (Move σ)}
    (hm : s.move invoke mv = some t) (hd : ∀ i, mv.isTurnOf i = true → d i = .home)
    (hdrop : ∀ i m, mv = .begin i (.dropManager m) → ∀ k, d k ≠ .asking m)
    (h : Padded invoke d t moves padded d' u) :
    Padded invoke d s (mv :: moves) (mv :: padded) d' u
  | closes {d d' : Nat → Detour} {s u : State σ} {moves padded : List (Move σ)} {i : Nat}
    {m : ManagerId} {M : Manager σ} {c : Context σ} (hd : d i = .home)
    (hi : s.placeOf i = .holding .direct c) (hM : s.manager? m = some M) (ho : c.owner ≠ some m)
    (h : Padded invoke (Detour.set d i (.asking m)) s moves padded d' u) :
    Padded invoke d s moves (.handle i (.close m) :: padded) d' u
  | refused {d d' : Nat → Detour} {s u : State σ} {moves padded : List (Move σ)} {i chosen : Nat}
    {m : ManagerId} (hd : d i = .asking m)
    (hq : ∀ c, s.placeOf i = .holding .direct c → (s.report (.notLentHere c.id m)).2 = false)
    (h : Padded invoke (Detour.set d i .refused) s moves padded d' u) :
    Padded invoke d s moves (.run i chosen :: padded) d' u
  | recovers {d d' : Nat → Detour} {s u : State σ} {moves padded : List (Move σ)} {i : Nat}
    (hd : d i = .refused) (h : Padded invoke (Detour.set d i .home) s moves padded d' u) :
    Padded invoke d s moves (.handle i .recover :: padded) d' u

/-- Where nobody is on a detour, any moves may be made. -/
theorem Padded.of_run {rest : List (Move σ)} {u : State σ} (hd : ∀ i, d i = .home)
    (hr : s.run invoke moves = some t) (h : Padded invoke d t rest padded d' u) :
    Padded invoke d s (moves ++ rest) (moves ++ padded) d' u := by
  induction moves generalizing s with
  | nil =>
    obtain rfl := Option.some.inj hr
    exact h
  | cons mv moves ih =>
    obtain ⟨t₁, hm, hr⟩ := run_cons hr
    refine .move hm (fun i _ => hd i) (fun _ m _ k hk => ?_) (ih hr)
    rw [hd k] at hk
    cases hk

/-- What a caller on a detour holds otherwise, and what it asks. -/
def Detour.Sound (s : State σ) (i : Nat) : Detour → Prop
  | .home => True
  | .asking m => ∃ c M, s.placeOf i = .holding .direct c ∧ c.owner ≠ some m ∧ s.manager? m = some M
  | .refused => ∃ c, s.placeOf i = .holding .direct c

/-- Others leave a caller on its detour. -/
theorem Detour.Sound.move (hr : s.Registered) (hm : s.move invoke mv = some t) {i : Nat}
    {detour : Detour} (h : Detour.Sound s i detour)
    (hd : mv.isTurnOf i = true → detour = .home)
    (hdrop : ∀ k m, mv = .begin k (.dropManager m) → detour ≠ .asking m) :
    Detour.Sound t i detour := by
  have hstays : ∀ c, detour ≠ .home → s.placeOf i = .holding .direct c →
      t.placeOf i = .holding .direct c := by
    intro c hne hi
    obtain ⟨hturn, -⟩ | ⟨-, hplace | ⟨r, hr, -⟩⟩ := move_cases hm i
    · exact absurd (hd hturn) hne
    · exact hplace.trans hi
    · rw [hi] at hr
      cases hr
  cases detour with
  | home => trivial
  | asking m =>
    obtain ⟨c, M, hi, ho, hM⟩ := h
    obtain ⟨M', hM'⟩ := manager?_of_not_dropped hr hm hM fun k hk => hdrop k m hk rfl
    exact ⟨c, M', hstays c nofun hi, ho, hM'⟩
  | refused =>
    obtain ⟨c, hi⟩ := h
    exact ⟨c, hstays c nofun hi⟩

theorem Detour.sound_set (h : ∀ k, Detour.Sound s k (d k)) {detour : Detour}
    (hi : Detour.Sound s i detour) (k : Nat) : Detour.Sound s k (Detour.set d i detour k) := by
  unfold Detour.set
  split
  · rename_i hk
    exact hk ▸ hi
  · exact h k

/-- **The moves that are put in change nothing for anybody else.** -/
theorem Padded.run (h : Padded invoke d s moves padded d' t) (hs : Reachable invoke s)
    (hd : ∀ i, Detour.Sound s i (d i)) (ha : Astray d s s') :
    s.run invoke moves = some t ∧ ∃ t', s'.run invoke padded = some t' ∧ Astray d' t t' := by
  induction h generalizing s' with
  | nil => exact ⟨rfl, s', rfl, ha⟩
  | @move d d' s t u mv moves padded hm hhome hdrop h ih =>
    obtain ⟨t', ht', ha'⟩ := ha.move hm hhome hdrop
    obtain ⟨hu, u', hu', hau⟩ := ih (hs.move hm)
      (fun i => (hd i).move hs.registered hm (hhome i) fun k m hk => hdrop k m hk i) ha'
    exact ⟨by rw [State.run, hm]; exact hu, u', by rw [State.run, ht']; exact hu', hau⟩
  | @closes d d' s u moves padded i m M c hhome hi hM ho h ih =>
    obtain ⟨hu, u', hu', hau⟩ := ih hs (Detour.sound_set hd ⟨c, M, hi, ho, hM⟩)
      (ha.detour hi (.asking m))
    refine ⟨hu, u', ?_, hau⟩
    have hat : s'.places[i]? = some (.holding .direct c) := by
      rw [ha.place?, place?_of_holding hi, hhome]
      rfl
    simp only [State.run, State.move, handle?, hat, withManager, ha.manager?_eq, hM,
      Option.map_some, Option.bind_some]
    exact hu'
  | @refused d d' s u moves padded i chosen m hask hq h ih =>
    obtain ⟨c, M, hi, ho, hM⟩ : Detour.Sound s i (.asking m) := hask ▸ hd i
    obtain ⟨hu, u', hu', hau⟩ := ih hs (Detour.sound_set hd ⟨c, hi⟩)
      ((ha.record c.id m).detour hi .refused)
    refine ⟨hu, u', ?_, hau⟩
    have hat : s'.places[i]? = some (.returning m .close c) := by
      rw [ha.place?, place?_of_holding hi, hask]
      rfl
    have hq' : (s'.report (.notLentHere c.id m)).2 = false := (ha.report_eq _).trans (hq c hi)
    simp only [State.run, State.move, step?, hat, withManager, ha.manager?_eq, hM,
      Option.map_some, Option.bind_some, giveBack_foreign ho hq']
    exact hu'
  | @recovers d d' s u moves padded i hask h ih =>
    obtain ⟨c, hi⟩ : Detour.Sound s i .refused := hask ▸ hd i
    obtain ⟨hu, u', hu', hau⟩ := ih hs (Detour.sound_set hd trivial) (ha.detour hi .home)
    refine ⟨hu, u', ?_, hau⟩
    have hat : s'.places[i]? = some (.refused c) := by
      rw [ha.place?, place?_of_holding hi, hask]
      rfl
    simp only [State.run, State.move, handle?, hat, Option.bind_some]
    exact hu'

/-- What a run with refused closes put in comes to, from the end of the one without: `s` is the state
that the moves lead to, `t` the one that they lead to together with the closes, and `d` tells who is
on a detour in `t`. -/
structure Unseen (invoke : Invoke σ) (d : Nat → Detour) (s t : State σ) : Prop where
  /-- The states are the same up to the detours and to the refusals that were reported. -/
  astray : Astray d s t
  outcomes : ∀ i, t.outcome? i = s.outcome? i
  stats : ∀ m, (t.manager? m).map Manager.stats = (s.manager? m).map Manager.stats
  sleepers : ∀ m, t.sleepers m = s.sleepers m
  ended : t.ended = s.ended
  /-- Once all are back they are where they would be, so that everything goes on alike. -/
  home : (∀ i, d i = .home) → t = { s with events := t.events }
  /-- Whoever closes a context, and as ever so, learns from its stamp alone what comes of it; what
  openers of a manager get bears its stamp. -/
  verdict : ∀ i m M c, t.placeOf i = .returning m .close c → t.manager? m = some M →
    Verdict invoke t i m M c
  lends : ∀ i mv u r c, t.move invoke mv = some u → (t.placeOf i).request? = some r →
    c ∈ (u.placeOf i).contexts → c.owner = some r.manager

/-- **A close on the wrong manager is invisible.**  Take any run, and put closes of contexts into it
on managers that have not lent them, at any points and as many as one likes, each of them refused and
taken up again. -/
theorem Padded.unseen {factories : List (Factory σ)}
    (h : Padded invoke (fun _ => .home) (initial factories) moves padded d s) :
    (initial factories).run invoke moves = some s ∧
      ∃ t, (initial factories).run invoke padded = some t ∧ Unseen invoke d s t := by
  have hstart := reachable_initial invoke factories
  obtain ⟨hs, t, ht, ha⟩ := h.run hstart (fun _ => trivial) (Astray.refl _)
  have htr := hstart.run ht
  refine ⟨hs, t, ht, ha, ha.outcome?_eq, fun m => by rw [ha.manager?_eq], ha.sleepers_eq,
    ha.ended_eq, fun hd => ?_, fun i m M c hi hM => htr.verdict hM hi, ?_⟩
  · obtain rfl : d = fun _ => .home := funext hd
    have ht := ha.eq_detoured
    rw [detoured, ← (Astray.refl ({ s with events := [] } : State σ)).places] at ht
    exact ht
  · intro i mv u r c hm hreq hc
    have hr := htr.registered
    have hmark := hr.marked_placeOf i
    obtain ⟨-, v, -, hv, -, hplace⟩ | ⟨-, hplace | ⟨r', -, hplace⟩⟩ := move_cases hm i
    · exact hv.stamped hr hmark hreq (hplace ▸ hc)
    · rw [hplace] at hc
      generalize t.placeOf i = p at hreq hc hmark
      cases p with
      | grown r' c' =>
        obtain rfl := Option.some.inj hreq
        obtain rfl := List.mem_singleton.1 hc
        exact hmark
      | asking r' => cases hc
      | asleep r' => cases hc
      | building r' => cases hc
      | abandoned r' e => cases hc
      | _ => cases hreq
    · rw [hplace] at hc
      cases hc

/-- The hypothesis is satisfiable: a context of a pool is closed on a manager of one; while the caller
is on its detour an opener falls asleep on the pool, and it is woken when the context is closed on the
pool. -/
theorem unseen_while_asleep :
    let before : List (Move Unit) :=
      [.begin 0 (.establish 0 (.pool ⟨1, 1, 1⟩)), .run 0 0, .run 0 0,
        .begin 1 (.establish 0 .single), .run 1 0, .run 1 0,
        .begin 2 (.acquire ⟨1⟩ .hold none), .run 2 0]
    let after : List (Move Unit) := [.handle 2 (.close ⟨1⟩), .run 2 0]
    ∃ s t : State Unit,
      (initial [plain]).run inert
        (before ++ [.begin 3 (.acquire ⟨1⟩ .hold none), .run 3 0] ++ after) = some s ∧
      (initial [plain]).run inert
        (before ++ [.handle 2 (.close ⟨2⟩), .begin 3 (.acquire ⟨1⟩ .hold none), .run 2 0, .run 3 0,
          .handle 2 .recover] ++ after) = some t ∧
      s.outcome? 2 = some .done ∧ s.placeOf 3 = .asking ⟨⟨1⟩, .hold, none⟩ ∧
      Unseen inert (Detour.set (Detour.set (Detour.set (fun _ => .home) 2 (.asking ⟨2⟩)) 2 .refused)
        2 .home) s t := by
  intro before after
  have hhome : ∀ i, Detour.set (Detour.set (Detour.set (fun _ => .home) 2 (.asking ⟨2⟩)) 2
      .refused) 2 .home i = .home := by
    intro i
    simp only [Detour.set]
    split <;> rfl
  -- the opener, which has number 3, is at home all the while
  have hother : ∀ (d : Nat → Detour) (mv : Move Unit) (i : Nat), d 3 = .home →
      (∀ j, mv.isTurnOf j = true → j = 3) → mv.isTurnOf i = true → d i = .home := by
    intro d mv i hd hmv hi
    obtain rfl := hmv i hi
    exact hd
  have h : Padded inert (fun _ => .home) (initial [plain])
      (before ++ .begin 3 (.acquire ⟨1⟩ .hold none) :: .run 3 0 :: (after ++ []))
      (before ++ .handle 2 (.close ⟨2⟩) :: .begin 3 (.acquire ⟨1⟩ .hold none) :: .run 2 0 ::
        .run 3 0 :: .handle 2 .recover :: (after ++ [])) _ _ :=
    .of_run (fun _ => rfl) rfl
      (.closes (i := 2) (m := ⟨2⟩) rfl rfl rfl (by decide)
        (.move rfl (fun i => hother _ _ i rfl fun _ h => (of_decide_eq_true h).symm)
          (fun _ _ => nofun)
          (.refused rfl (fun _ _ => rfl)
            (.move rfl (fun i => hother _ _ i rfl fun _ h => (of_decide_eq_true h).symm)
              (fun _ _ => nofun)
              (.recovers rfl (.of_run hhome rfl .nil))))))
  obtain ⟨hs, t, ht, hu⟩ := h.unseen
  exact ⟨_, t, hs, ht, rfl, rfl, hu⟩

end State
end Lending
end HookPool
