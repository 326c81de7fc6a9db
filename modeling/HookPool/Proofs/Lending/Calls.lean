/-
# Managers through which hooks are called

All callers of a manager call hooks through it, or have finished: none of them keeps a context,
shuts the manager down or makes another one.  Then each call comes to its end, whatever order the
callers take their steps in and whether or not a sleeper wakes up without any cause:

* as long as a call is not finished, some caller can take a step (`Serves.exists_ready`), since
  while all others sleep no context is lent and no slot is taken, and a manager with nothing lent
  leaves nobody asleep;
* each step takes a caller nearer to the end of its call, even if it wakes another one
  (`Serves.ahead_run`).

`Serves` is what is known of such a manager and its callers; every move of theirs keeps it
(`Serves.move`).
-/
import HookPool.Proofs.Lending.Accounting
import HookPool.Proofs.Lending.Caller
import HookPool.Proofs.Lending.Tame
import HookPool.Proofs.Lending.Wakeup

namespace HookPool
namespace Lending

variable {σ : Type}

/-- The move belongs to a call of a hook through the manager. -/
def Move.IsOfCall (m : ManagerId) : Move σ → Prop
  | .begin _ (.acquire k (.call _ _) none) => k = m
  | .run _ _ | .rouse _ => True
  | _ => False

/-! ## Steps that a caller has ahead -/

/-- How many steps of its call a caller has ahead of it at the most, unless it is woken and finds
nothing. -/
@[simp] def Place.ahead : Place σ → Nat
  | .asking _ => 8
  | .asleep _ => 7
  | .building _ => 6
  | .grown _ _ => 5
  | .running .. => 4
  | .returning .. => 3
  | .abandoned _ _ => 2
  | .evicting .. => 1
  | _ => 0

/-- The same, where a sleeper counts as if it were awake. -/
@[simp] def Place.span : Place σ → Nat
  | .asleep _ => 8
  | p => p.ahead

theorem steady_span : Steady (Place.span (σ := σ)) := fun _ => rfl

theorem Place.ahead_add_sleeps {m : ManagerId} {p : Place σ} (h : p.InCall m) :
    p.ahead + p.sleeps m = p.span := by
  cases p with
  | asleep r => simp only [Place.ahead, Place.sleeps, Place.span, if_pos h.1]
  | _ => rfl

/-- Sleepers have one step less ahead than they would have awake. -/
theorem total_ahead {m : ManagerId} {places : List (Place σ)} (h : ∀ p ∈ places, p.InCall m) :
    total Place.ahead places + total (Place.sleeps m) places = total Place.span places := by
  induction places with
  | nil => rfl
  | cons p places ih =>
    have hp := Place.ahead_add_sleeps (h p List.mem_cons_self)
    have hrest := ih fun q hq => h q (List.mem_cons_of_mem p hq)
    simp only [total_cons]
    omega

theorem Place.ahead_served_le (r : Request) (c : Context σ) : (r.served c).ahead ≤ 4 :=
  r.served_induction c (fun _ => Nat.zero_le 4) (fun _ _ => Nat.le_refl 4)

/-- Every manager may lend a context. -/
theorem Bounded.maxActive_pos {M : Manager σ} {n : Tally} (h : Bounded M n) :
    0 < M.stock.maxActive := by
  cases hs : M.stock with
  | pool config active idle => exact (h.sized config (by rw [hs]; rfl)).1.1
  | single slot out => exact Nat.one_pos

namespace State

variable {invoke : Invoke σ} {s t : State σ} {mv : Move σ} {i chosen : Nat} {m : ManagerId}
  {M M' : Manager σ} {p : Place σ} {u : Upshot σ}

/-- **A step of a call takes the caller nearer to its end**, by more than a sleeper that it may wake
falls behind. -/
theorem Turn.ahead_lt (h : Turn invoke s i (.run i chosen) p u) (hcall : p.InCall m) (n : Nat) :
    u.place.ahead + u.wake.count m n < p.ahead := by
  have hone : ∀ k, Wake.count m n (.one k chosen) ≤ 1 := by
    intro k
    unfold Wake.count
    dsimp only
    split <;> omega
  cases h with
  | opening h =>
    cases h with
    | @lent r M c rest =>
      have := Place.ahead_served_le r c
      show (r.served c).ahead + 0 < 8
      omega
    | @counted r M c =>
      have := Place.ahead_served_le r c
      show (r.served c).ahead + 0 < 5
      omega
    | @gaveUp r M e =>
      have := hone r.manager
      simp only [Place.ahead]
      omega
    | _ => simp
  | givingBack h =>
    cases h with
    | @kept k M aim c =>
      have := hone k
      simp only [Place.ahead]
      omega
    | @turnedAway k M aim c =>
      have := hone k
      simp only [Place.ahead]
      split
      · omega
      · simp
    | _ => simp
  | stopping h => cases h <;> cases hcall
  | making h => cases h <;> cases hcall

/-- **A call leaves the manager open**, and its factory as it was. -/
theorem Turn.stays_open (h : Turn invoke s i mv p u) (hmv : mv.IsOfCall m) (hcall : p.InCall m)
    (hM : s.manager? m = some M) :
    ∃ M', u.shift.lookUp m (some M) = some M' ∧ M'.closed = M.closed ∧ M'.factory = M.factory := by
  have hkeep : ∃ M', Shift.lookUp m (some M) .keep = some M' ∧ M'.closed = M.closed ∧
      M'.factory = M.factory := ⟨M, rfl, rfl, rfl⟩
  have hreplace : ∀ {k : ManagerId} {M₀ M₁ : Manager σ}, s.manager? k = some M₀ →
      M₁.closed = M₀.closed → M₁.factory = M₀.factory →
        ∃ M', Shift.lookUp m (some M) (.replace k (some M₁)) = some M' ∧
          M'.closed = M.closed ∧ M'.factory = M.factory := by
    intro k M₀ M₁ hk hc hf
    by_cases hkm : m = k
    · subst hkm
      obtain rfl := Option.some.inj (hM.symm.trans hk)
      exact ⟨M₁, by simp [Shift.lookUp], hc, hf⟩
    · exact ⟨M, by simp [Shift.lookUp, hkm], rfl, rfl⟩
  cases h with
  | opening h =>
    cases h with
    | lent hm | lentCrash hm | reserved hm | counted hm | countedCrash hm | gaveUp hm =>
      exact hreplace hm rfl rfl
    | _ => exact hkeep
  | givingBack h =>
    cases h with
    | kept hm | keptCrash hm | turnedAway hm | evicted hm => exact hreplace hm rfl rfl
    | _ => exact hkeep
  | stopping h => cases h <;> cases hcall
  | making h => cases h <;> cases hcall
  | beginning h => cases h <;> first | exact hkeep | cases hmv
  | dealing h => cases hmv
  | works => cases hmv
  | rousing => exact hkeep

/-! ## What is known all the way -/

/-- An open manager through which all callers call hooks, where nobody can come to grief. -/
structure Serves (s : State σ) (m : ManagerId) (M : Manager σ) : Prop where
  registered : s.Registered
  tame : s.Tame
  there : s.manager? m = some M
  isOpen : M.closed = false
  factory : M.factory < s.factories.length
  calls : ∀ p ∈ s.places, p.InCall m
  books : ∃ signalled, Bounded M (s.tally signalled m) ∧ Heard M (s.tally signalled m) ∧
    Balanced 0 M (s.tally signalled m)

namespace Serves

theorem inCall (h : Serves s m M) (hp : s.places[i]? = some p) : p.InCall m :=
  h.calls p (List.mem_of_getElem? hp)

theorem placeOf (h : Serves s m M) (i : Nat) : (s.placeOf i).InCall m := by
  unfold State.placeOf
  cases hp : s.places[i]? with
  | none =>
    intro payload ho
    cases ho
  | some p => exact h.inCall hp

/-- **A move of a call leaves its caller in the call**, and the others alone. -/
theorem goesOn (h : Serves s m M) (hm : s.move invoke mv = some t) (hmv : mv.IsOfCall m) :
    ∃ i, mv.isTurnOf i = true ∧ GoesOn s i m t := by
  have hs := Undisturbed.refl h.tame.unarmed
  cases mv with
  | begin i operation =>
    refine ⟨i, decide_eq_true rfl, ?_⟩
    simp only [State.move, begin?] at hm
    split at hm
    · cases operation with
      | acquire k purpose timeout =>
        cases purpose with
        | call hook arguments =>
          cases timeout with
          | none =>
            obtain ⟨M, -, rfl⟩ := withManager_eq_some hm
            exact ⟨s, .asking _, rfl, hs, hmv, rfl, hook, arguments, rfl⟩
          | some timeout => cases hmv
        | _ => cases hmv
      | _ => cases hmv
    · cases hm
  | run i chosen =>
    refine ⟨i, decide_eq_true rfl, ?_⟩
    cases hp : s.places[i]? with
    | none => simp [State.move, step?, hp] at hm
    | some p =>
      have hmark := h.registered.marked p (List.mem_of_getElem? hp)
      exact h.tame.step_call hp (h.inCall hp) hmark h.there h.factory hm
  | rouse i =>
    refine ⟨i, decide_eq_true rfl, ?_⟩
    simp only [State.move, rouse?] at hm
    split at hm
    · rename_i r hp
      obtain rfl := Option.some.inj hm
      have hcall : r.Calls m := h.inCall hp
      exact ⟨s, .asking r, rfl, hs, hcall⟩
    · cases hm
  | _ => cases hmv

/-- **Every move of a call keeps all that is known.** -/
theorem move (h : Serves s m M) (hm : s.move invoke mv = some t) (hmv : mv.IsOfCall m) :
    ∃ M', Serves t m M' := by
  obtain ⟨i, hturn, t₀, q, ht, hunder, hq⟩ := h.goesOn hm hmv
  obtain ⟨-, u, hi, hu, hf, hplace⟩ | ⟨hno, -⟩ := move_cases hm i
  case inr => rw [hturn] at hno; cases hno
  have hcalls : ∀ p ∈ t.places, p.InCall m := by
    intro p hp
    rw [hf.places] at hp
    rcases mem_putAt hp with rfl | hp
    · have hput : t.placeOf i = q := by
        rw [ht]
        exact placeOf_put (by rw [hunder.length]; exact hi) q
      rw [← hplace, hput]
      exact hq
    · obtain ⟨j, hj⟩ := List.mem_iff_getElem?.1 hp
      rcases of_getElem?_apply hj with hs | ⟨r, hs, rfl⟩
      · exact h.inCall hs
      · exact (show r.Calls m from h.inCall hs)
  have hcalm : t.Calm := fun p hp => (hcalls p hp).calm
  obtain ⟨M', hM', hclosed, hfactory⟩ := hu.stays_open hmv (h.placeOf i) h.there
  have hthere : t.manager? m = some M' := by
    rw [h.registered.manager? hu hf, h.there]
    exact hM'
  obtain ⟨signalled, hb, hh, hbal⟩ := h.books
  have he := ledger_step h.registered hm h.there hthere signalled
  have hdrops : s.drops m mv = 0 := by cases mv <;> first | rfl | cases hmv
  have hbal := hbal.step he (fun hn => hn hcalm) hb
  rw [hdrops] at hbal
  have hfactories : t.factories.length = s.factories.length := by
    rw [ht, factories_put, hunder.length_factories]
  refine ⟨M', h.registered.move hm, ?_, hthere, hclosed.trans h.isOpen, ?_, hcalls,
    _, hb.step he, hh.step he hb, hbal⟩
  · rw [ht]
    exact (hunder.tame h.tame).put i q
  · rw [hfactory, hfactories]
    exact h.factory

/-- A report keeps all that is known. -/
theorem record (h : Serves s m M) (e : Event) : Serves (s.record e) m M where
  registered := ⟨h.registered.stocked, h.registered.marked, h.registered.untaken,
    h.registered.unborn⟩
  tame := ⟨h.tame.unarmed, h.tame.factories⟩
  there := h.there
  isOpen := h.isOpen
  factory := h.factory
  calls := h.calls
  books := h.books

/-! ## Calls come to their end -/

/-- What a move changes of the steps ahead of all callers together. -/
theorem ahead_le (h : Serves s m M) (hm : s.move invoke mv = some t) (hmv : mv.IsOfCall m)
    (hi : mv.isTurnOf i = true) : ∃ u, Turn invoke s i mv (s.placeOf i) u ∧
      total Place.ahead t.places + (s.placeOf i).ahead ≤ total Place.ahead s.places +
        u.place.ahead + u.wake.count m (total (Place.sleeps m) s.places) := by
  obtain ⟨-, u, hle, hu, hf, -⟩ | ⟨hno, -⟩ := move_cases hm i
  case inr => rw [hi] at hno; cases hno
  obtain ⟨M', ht⟩ := h.move hm hmv
  have hplace : u.place ∈ t.places := hf.places ▸ mem_putAt_self _ i _
  refine ⟨u, hu, ?_⟩
  have hspan := hf.total hle steady_span rfl
  have hsleep := hf.total_sleeps hle hu.awake m
  have hfrom := Place.ahead_add_sleeps (h.placeOf i)
  have hto := Place.ahead_add_sleeps (ht.calls u.place hplace)
  have hbefore := total_ahead h.calls
  have hafter := total_ahead ht.calls
  omega

/-- **A step leaves less ahead of all callers together.** -/
theorem ahead_run (h : Serves s m M) (hm : s.move invoke (.run i chosen) = some t) :
    total Place.ahead t.places < total Place.ahead s.places := by
  obtain ⟨u, hu, hle⟩ := h.ahead_le hm trivial (decide_eq_true rfl)
  have hlt := hu.ahead_lt (h.placeOf i) (total (Place.sleeps m) s.places)
  omega

/-- A sleeper that wakes up without any cause has one step more ahead. -/
theorem ahead_rouse (h : Serves s m M) (hm : s.move invoke (.rouse i) = some t) :
    total Place.ahead t.places ≤ total Place.ahead s.places + 1 := by
  obtain ⟨u, hu, hle⟩ := h.ahead_le hm trivial (decide_eq_true rfl)
  generalize s.placeOf i = p at hu hle
  cases hu with
  | rousing =>
    simp only [Place.ahead, Wake.count] at hle
    omega

/-- A call that begins has all of its steps ahead. -/
theorem ahead_begin (h : Serves s m M) {hook : String} {arguments : List HookArg}
    (hm : s.move invoke (.begin i (.acquire m (.call hook arguments) none)) = some t) :
    total Place.ahead t.places ≤ total Place.ahead s.places + 8 := by
  obtain ⟨u, hu, hle⟩ := h.ahead_le hm rfl (decide_eq_true rfl)
  generalize s.placeOf i = p at hu hle
  cases hu with
  | beginning hu =>
    cases hu with
    | opens =>
      simp only [Place.ahead, Wake.count] at hle
      omega

/-- **While a call is not finished, some caller can take a step**: if all others slept, there would
be no context lent and no slot taken that they could wait for. -/
theorem exists_ready (h : Serves s m M) (hp : p ∈ s.places) (hn : ∀ o, p ≠ .finished o) :
    ∃ q ∈ s.places, q.isReady = true := by
  refine Decidable.byContradiction fun hnone => ?_
  have hidle : ∀ q ∈ s.places, (∃ o, q = .finished o) ∨ ∃ r, q = .asleep r := by
    intro q hq
    have hcall := h.calls q hq
    have hready : q.isReady ≠ true := fun hready => hnone ⟨q, hq, hready⟩
    cases q with
    | finished o => exact .inl ⟨o, rfl⟩
    | asleep r => exact .inr ⟨r, rfl⟩
    | holding tenure c => cases hcall
    | refused c => cases hcall
    | _ => exact absurd rfl hready
  obtain ⟨signalled, hbound, hheard, hbal⟩ := h.books
  obtain ⟨o, rfl⟩ | ⟨r, rfl⟩ := hidle p hp
  · exact hn o rfl
  have hsleep : 0 < (s.tally signalled m).sleeping := by
    have hle := le_total (Place.sleeps m) hp
    rwa [Place.sleeps, if_pos (show r.Calls m from h.calls _ hp).1] at hle
  have hheed : (s.tally signalled m).heeding = 0 := by
    refine heeding_eq_zero fun i r' hr' _ => ?_
    obtain ⟨o, ho⟩ | ⟨r'', hr''⟩ := hidle _ (List.mem_of_getElem? hr')
    · cases ho
    · cases hr''
  have hheld : (s.tally signalled m).held = 0 := by
    refine total_eq_zero fun q hq => ?_
    obtain ⟨o, rfl⟩ | ⟨r, rfl⟩ := hidle q hq <;> rfl
  have hbuild : (s.tally signalled m).building = 0 := by
    refine total_eq_zero fun q hq => ?_
    obtain ⟨o, rfl⟩ | ⟨r, rfl⟩ := hidle q hq <;> rfl
  have hpos := hbound.maxActive_pos
  have hfull := hheard.heeded hbal.sound hsleep
  have hactive := hbal.active
  omega

/-- **A caller that is ready can take a step.** -/
theorem possible (h : Serves s m M) (hp : s.places[i]? = some p) (hready : p.isReady = true)
    (chosen : Nat) : ∃ t, s.step? invoke i chosen = some t := by
  refine possible_of_ready (m := m) h.there hp hready ?_ chosen
  have hcall := h.inCall hp
  cases p with
  | returning k aim c => cases aim <;> first | exact beq_iff_eq.2 hcall | cases hcall
  | evicting k aim c => cases aim <;> first | exact beq_iff_eq.2 hcall | cases hcall
  | running k hook arguments c => exact beq_iff_eq.2 hcall
  | asking r => exact beq_iff_eq.2 hcall.1
  | building r => exact beq_iff_eq.2 hcall.1
  | grown r c => exact beq_iff_eq.2 hcall.1
  | abandoned r e => exact beq_iff_eq.2 hcall.1
  | asleep r => cases hready
  | finished o => cases hready
  | _ => cases hcall

/-- **Where all calls are finished nothing is lent**, and what was made is destroyed or at hand. -/
theorem at_rest (h : Serves s m M) (hall : ∀ p ∈ s.places, ∃ o, p = .finished o) :
    M.stock.active = 0 ∧ M.created = M.destroyed + M.stock.contexts.length := by
  obtain ⟨signalled, hbound, hheard, hbal⟩ := h.books
  have hzero : ∀ f : Place σ → Nat, (∀ o, f (.finished o) = 0) → total f s.places = 0 := by
    intro f hf
    refine total_eq_zero fun p hp => ?_
    obtain ⟨o, rfl⟩ := hall p hp
    exact hf o
  have hheld : (s.tally signalled m).held = 0 := hzero _ fun _ => rfl
  have hbuild : (s.tally signalled m).building = 0 := hzero _ fun _ => rfl
  have hleave : (s.tally signalled m).leaving = 0 := hzero _ fun _ => rfl
  have hsum := hbal.contexts
  have hactive := hbal.active
  omega

end Serves
end State
end Lending
end HookPool
