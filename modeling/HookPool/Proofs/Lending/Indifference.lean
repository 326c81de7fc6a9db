/-
# What hooks do is nothing to the managers

Whatever the hooks of two runs do, what is left of the runs without hooks is the same; and that is
all that a manager has to do with: which contexts are at hand and in which order, how many are in
use, were created and destroyed, who sleeps and who was woken (`SameBooks`).  A call that is over has
given back what it took, so that the manager has as many contexts in use as before, if the others
keep theirs (`Level`).

Main statement: `Reachable.indifferent`, of any two lists of moves from states of which the same is
left, for managers of both kinds.  What is asked of hooks is only that their errors bear their names,
as those of scripts do (`Script.Interpreter.hooks`).
-/
import HookPool.Proofs.Lending.Frozen
import HookPool.Proofs.Lending.Spared
import HookPool.Proofs.Results
import HookPool.Script.Invocation

namespace HookPool
namespace Lending

variable {σ τ : Type}

/-- The contexts of the manager that the caller has, with the slot in which it builds one. -/
def Place.stake (m : ManagerId) (p : Place σ) : Nat :=
  p.holds m + p.builds m

/-- What others do leaves the number of contexts in use, if nobody comes by one or gives one up. -/
theorem Entry.active_eq {panics locked : Prop} {d : Nat} {M M' : Manager σ} {n n' : Tally}
    (he : Entry panics locked d M n M' n')
    (hsame : n'.held + n'.building = n.held + n.building) (hp : M'.poisoned = false) :
    M'.stock.active = M.stock.active := by
  cases he with
  | still | came | went | fellAsleep | awoke | counted | discarded | drainCrash => rfl
  | shut => exact M.stock.active_emptied
  | lentCrash | keptCrash => cases hp
  | lent _ _ _ _ _ hn | reserved _ _ _ _ _ hn | buildCrash _ hn | countedCrash _ hn | gaveUp _ hn
  | lost hn | wasted _ hn | kept _ _ _ hn | turnedAway _ _ _ hn =>
    obtain ⟨-, -, -, hbuild, hheld, -⟩ := hn
    dsimp only at hbuild hheld
    omega

namespace State

variable {invoke : Invoke σ} {s t : State σ} {mv : Move σ} {moves : List (Move σ)} {i n : Nat}
  {p : Place σ} {u : Upshot σ} {o : Outcome} {m : ManagerId} {M M' : Manager σ}

/-! ## A call gives back what it took -/

theorem stake_served {r : Request} {c : Context σ} (h : r.Calls m) (hc : c.owner = some m) :
    (r.served c).stake m = 1 := by
  obtain ⟨-, -, hook, arguments, hp⟩ := h
  unfold Request.served
  rw [hp]
  simp [Place.stake, hc]

/-- Whoever has come to grief does so for good. -/
theorem Turn.grieves (h : Turn invoke s i mv p u) (hg : p.isGrieving = true)
    (hmv : ∀ operation, mv ≠ .begin i operation) : u.place.isGrieving = true := by
  cases h with
  | beginning h => exact absurd rfl (hmv _)
  | opening h => cases h <;> cases hg
  | givingBack h =>
    cases h with
    | called | undefined | undefinedCrash => cases hg
    | keptCrash => rfl
    | refused _ _ ha => rcases ha with rfl | ⟨reply, rfl⟩ <;> cases hg
    | @refusedEnd _ _ aim _ _ _ _ h =>
      rcases h with rfl | ⟨-, rfl⟩
      · rfl
      · cases aim <;> first | rfl | cases hg
    | @barred _ _ aim _ _ _ _ _ h | @evicted _ _ aim _ _ _ h =>
      rcases h with rfl | rfl
      · rfl
      · cases aim <;> first | rfl | cases hg
    | @kept _ _ aim | @turnedAway _ _ aim => cases aim <;> first | rfl | cases hg
  | stopping h => cases h <;> cases hg
  | making h => cases h <;> cases hg
  | dealing h => cases h <;> cases hg
  | works => cases hg
  | rousing => cases hg

/-- **In each turn of a call the manager counts what its caller takes and gives back**, unless the
caller comes to grief. -/
theorem Turn.level (hr : s.Registered) (hu : Turn invoke s i mv p u) (hcall : p.InCall m)
    (hmark : p.Marked) (hmv : ∀ operation, mv ≠ .begin i operation)
    (hM : s.manager? m = some M) (hp : M.poisoned = false) {n : Tally} (hb : Bounded M n)
    (hpos : p.stake m ≤ M.stock.active) (hM' : u.shift.lookUp m (some M) = some M') :
    u.place.isGrieving = true ∨
      u.place.InCall m ∧ M'.stock.active + p.stake m = M.stock.active + u.place.stake m := by
  have hsame : some M = some M' → M'.stock.active = M.stock.active :=
    fun h => congrArg (fun N => N.stock.active) (Option.some.inj h).symm
  have hset : ∀ {N : Manager σ}, (Shift.replace m (some N)).lookUp m (some M) = some M' →
      M' = N := by
    intro N h
    rw [Shift.lookUp, if_pos rfl] at h
    exact (Option.some.inj h).symm
  cases hu with
  | beginning h => exact absurd rfl (hmv _)
  | opening h =>
    cases h with
    | barred hm hbad =>
      obtain rfl : _ = m := hcall.1
      rw [Option.some.inj (hM.symm.trans hm)] at hp
      rw [hp] at hbad
      cases hbad
    | shutOut | timedOut => exact .inr ⟨.finished_failed m _, by rw [hsame hM']; rfl⟩
    | fellAsleep => exact .inr ⟨hcall, by rw [hsame hM']; rfl⟩
    | @lent r N c rest hm _ _ ho =>
      obtain rfl : r.manager = m := hcall.1
      obtain rfl := Option.some.inj (hM.symm.trans hm)
      obtain rfl := hset hM'
      refine .inr ⟨.served hcall c, ?_⟩
      rw [stake_served hcall (hr.owner_of_lent hm ho), Manager.stock_withStock,
        Stock.active_of_offer_lent ho hb.room]
      rfl
    | @reserved r N rest hm _ _ ho =>
      obtain rfl : r.manager = m := hcall.1
      obtain rfl := Option.some.inj (hM.symm.trans hm)
      obtain rfl := hset hM'
      refine .inr ⟨hcall, ?_⟩
      rw [Manager.stock_withStock, (Stock.of_offer_reserved ho).2.2.2]
      simp [Place.stake]
    | built | buildFailed => exact .inr ⟨hcall, by rw [hsame hM']; simp [Place.stake]⟩
    | @counted r N c hm =>
      obtain rfl : r.manager = m := hcall.1
      obtain rfl := Option.some.inj (hM.symm.trans hm)
      obtain rfl := hset hM'
      refine .inr ⟨.served hcall c, ?_⟩
      rw [stake_served hcall hmark]
      simp [Place.stake]
    | @gaveUp r N e hm =>
      obtain rfl : r.manager = m := hcall.1
      obtain rfl := Option.some.inj (hM.symm.trans hm)
      obtain rfl := hset hM'
      refine .inr ⟨.finished_failed _ e, ?_⟩
      simp [Place.stake] at hpos ⊢
      omega
    | lentCrash | buildFailedCrash | buildCrash | countedCrash => exact .inl rfl
  | givingBack h =>
    cases h with
    | called | undefined => exact .inr ⟨hcall, by rw [hsame hM']; rfl⟩
    | undefinedCrash | keptCrash => exact .inl rfl
    | @refused k _ aim c hm ho =>
      cases aim with
      | reply reply => exact absurd (hmark.resolve_left (by simp)) ho
      | _ => cases hcall
    | @refusedEnd k _ aim c _ hm ho =>
      cases aim with
      | reply reply => exact absurd (hmark.resolve_left (by simp)) ho
      | _ => cases hcall
    | @barred k N aim c o hm ho hbad =>
      cases aim with
      | reply reply =>
        obtain rfl : k = m := hcall
        rw [Option.some.inj (hM.symm.trans hm)] at hp
        rw [hp] at hbad
        cases hbad
      | _ => cases hcall
    | @kept k N aim c hm ho =>
      cases aim with
      | reply reply =>
        obtain rfl : k = m := hcall
        obtain rfl := Option.some.inj (hM.symm.trans hm)
        obtain rfl := hset hM'
        refine .inr ⟨.finished_verdict _ reply _, ?_⟩
        simp [Place.stake, ho] at hpos ⊢
        omega
      | _ => cases hcall
    | @turnedAway k N aim c hm ho =>
      cases aim with
      | reply reply =>
        obtain rfl : k = m := hcall
        obtain rfl := Option.some.inj (hM.symm.trans hm)
        obtain rfl := hset hM'
        refine .inr ⟨rfl, ?_⟩
        simp [Place.stake, ho] at hpos ⊢
        omega
      | _ => cases hcall
    | @evicted k N aim c o hm h =>
      rcases h with rfl | rfl
      · exact .inl rfl
      · cases aim with
        | reply reply =>
          obtain rfl : k = m := hcall
          obtain rfl := Option.some.inj (hM.symm.trans hm)
          obtain rfl := hset hM'
          exact .inr ⟨.finished_verdict _ reply _, rfl⟩
        | _ => cases hcall
  | stopping h => cases h <;> cases hcall
  | making h => cases h <;> cases hcall
  | dealing h => cases h <;> cases hcall
  | works => cases hcall
  | rousing => exact .inr ⟨hcall, by rw [hsame hM']; rfl⟩

/-- No other caller comes by a context or a slot of the manager on the way that the moves take from
the state, or gives one up. -/
def OthersKeep (invoke : Invoke σ) (i : Nat) (m : ManagerId) (s : State σ) :
    List (Move σ) → Prop
  | [] => True
  | mv :: moves => ∀ t, s.move invoke mv = some t →
    (∀ j, j ≠ i → (t.placeOf j).stake m = (s.placeOf j).stake m) ∧
      t.OthersKeep invoke i m moves

/-- The manager has `a` contexts in use besides what the caller has that is in its call; or the
caller has come to grief, or the manager is poisoned. -/
def Level (a : Nat) (i : Nat) (m : ManagerId) (s : State σ) (M : Manager σ) : Prop :=
  (s.placeOf i).isGrieving = true ∨ M.poisoned = true ∨
    (s.placeOf i).InCall m ∧ M.stock.active = a + (s.placeOf i).stake m

/-- **As long as the others keep what they have, the manager counts nothing but what the caller
takes and gives back.** -/
theorem Level.move {a : Nat} (h : Level a i m s M) (hs : Reachable invoke s)
    (hm : s.move invoke mv = some t) (hmv : ∀ operation, mv ≠ .begin i operation)
    (hkeep : ∀ j, j ≠ i → (t.placeOf j).stake m = (s.placeOf j).stake m)
    (hM : s.manager? m = some M) (hM' : t.manager? m = some M') : Level a i m t M' := by
  have he := ledger_step hs.registered hm hM hM' fun _ => false
  by_cases hp' : M'.poisoned = true
  · exact .inr (.inl hp')
  have hp : M.poisoned = false := by
    refine Bool.eq_false_iff.2 fun hp => hp' ?_
    rw [(he.drift hp).poisoned, hp]
  rw [Bool.not_eq_true] at hp'
  obtain ⟨k, u, hk, hu, hf⟩ | hidle := move_turn hm
  · by_cases hki : k = i
    · subst hki
      have hplace := hf.placeOf_self hk
      have hlook := hs.registered.manager? hu hf m
      rw [hM', hM] at hlook
      rcases h with hg | hbad | ⟨hcall, hactive⟩
      · exact .inl (by rw [hplace]; exact hu.grieves hg hmv)
      · rw [hp] at hbad
        cases hbad
      · rcases hu.level hs.registered hcall (hs.registered.marked_placeOf k) hmv hM hp
          (hs.bounded hM fun _ => false) (by omega) hlook.symm with hg | ⟨hcall', hlevel⟩
        · exact .inl (by rw [hplace]; exact hg)
        · rw [← hplace] at hcall' hlevel
          exact .inr (.inr ⟨hcall', by omega⟩)
    · have hheld := hf.total hk (steady_holds m) rfl
      have hbuild := hf.total hk (steady_builds m) rfl
      have hown := hkeep k hki
      rw [hf.placeOf_self hk] at hown
      simp only [Place.stake] at hown
      have hactive' : M'.stock.active = M.stock.active :=
        he.active_eq (by simp only [tally]; omega) hp'
      rcases hf.placeOf_other hk (Ne.symm hki) with hplace | ⟨r, hr, hr'⟩
      · rw [Level, hplace, hactive', hp']
        rwa [Level, hp] at h
      · rcases h with hg | hbad | ⟨hcall, hactive⟩
        · rw [hr] at hg
          cases hg
        · rw [hp] at hbad
          cases hbad
        · rw [hr] at hcall hactive
          refine .inr (.inr ⟨by rw [hr']; exact hcall, ?_⟩)
          rw [hactive', hactive, hr']
          rfl
  · have hsame : M = M' := by
      rw [manager?_of_managers_eq hidle.managers, hM] at hM'
      exact Option.some.inj hM'
    have hplace : t.placeOf i = s.placeOf i := by rw [placeOf, placeOf, hidle.places]
    rwa [Level, hplace, ← hsame]

/-- The same on whole runs. -/
theorem Level.run {a : Nat} (h : Level a i m s M) (hs : Reachable invoke s)
    (hr : s.run invoke moves = some t) (hmoves : ∀ operation, .begin i operation ∉ moves)
    (hkeep : s.OthersKeep invoke i m moves) (hM : s.manager? m = some M)
    (hM' : t.manager? m = some M') : Level a i m t M' := by
  induction moves generalizing s M with
  | nil =>
    obtain rfl := Option.some.inj hr
    obtain rfl := Option.some.inj (hM.symm.trans hM')
    exact h
  | cons mv moves ih =>
    obtain ⟨t₁, hm, hr⟩ := run_cons hr
    obtain ⟨hkeep₁, hkeep⟩ := hkeep t₁ hm
    cases hM₁ : t₁.manager? m with
    | none =>
      have hgone := gone_of_run (hs.move hm)
        (fun hf => hs.registered.not_fresh hM (hf.of_move hm)) hM₁ hr
      rw [hM'] at hgone
      cases hgone
    | some M₁ =>
      refine ih (h.move hs hm ?_ hkeep₁ hM hM₁) (hs.move hm) hr ?_ hkeep hM₁
      · rintro operation rfl
        exact hmoves operation (List.mem_cons_self ..)
      · exact fun operation ho => hmoves operation (List.mem_cons_of_mem _ ho)

/-- **A call leaves as many contexts in use as there were before it**, if the others keep theirs. -/
theorem Reachable.active_after_call {hook : String} {arguments : List HookArg}
    (hs : Reachable invoke s) (hM : s.manager? m = some M)
    (hr : s.run invoke (.begin i (.acquire m (.call hook arguments) none) :: moves) = some t)
    (hmoves : ∀ operation, .begin i operation ∉ moves)
    (hkeep : s.OthersKeep invoke i m (.begin i (.acquire m (.call hook arguments) none) :: moves))
    (ho : t.outcome? i = some o) (hcalm : ∀ payload, o ≠ .panicked payload)
    (hM' : t.manager? m = some M') (hp' : M'.poisoned = false) :
    M'.stock.active = M.stock.active := by
  obtain ⟨s₁, hm, hr⟩ := run_cons hr
  obtain ⟨-, hkeep⟩ := hkeep s₁ hm
  -- at the beginning the caller only asks
  obtain ⟨hplace, hM₁⟩ : s₁.placeOf i = .asking ⟨m, .call hook arguments, none⟩ ∧
      s₁.manager? m = some M := by
    obtain ⟨-, u, -, hu, hf, hplace⟩ | ⟨hno, -⟩ := move_cases hm i
    · rw [hplace, hs.registered.manager? hu hf m, hM]
      generalize s.placeOf i = p at hu
      obtain ⟨h⟩ | _ := hu
      cases h
      exact ⟨rfl, rfl⟩
    · simp [Move.isTurnOf] at hno
  have hstart : Level M.stock.active i m s₁ M := by
    rw [Level, hplace]
    exact .inr (.inr ⟨⟨rfl, rfl, hook, arguments, rfl⟩, rfl⟩)
  have hend := hstart.run (hs.move hm) hr hmoves hkeep hM₁ hM'
  rw [Level, placeOf_of_outcome? ho, hp'] at hend
  rcases hend with hg | hbad | ⟨-, hactive⟩
  · cases o with
    | panicked payload => exact absurd rfl (hcalm payload)
    | _ => cases hg
  · cases hbad
  · exact hactive

/-! ## The books -/

/-- Whoever only looks at the books cannot tell the states apart. -/
structure SameBooks (s : State σ) (t : State τ) : Prop where
  /-- As many contexts are in use and at hand, as many were created and destroyed. -/
  stats : ∀ m, (t.manager? m).map Manager.stats = (s.manager? m).map Manager.stats
  /-- The same contexts are at hand, in the same order. -/
  atHand : ∀ m, (t.manager? m).map (fun M => M.stock.contexts.map Context.id) =
    (s.manager? m).map fun M => M.stock.contexts.map Context.id
  closed : ∀ m, (t.manager? m).map Manager.closed = (s.manager? m).map Manager.closed
  poisoned : ∀ m, (t.manager? m).map Manager.poisoned = (s.manager? m).map Manager.poisoned
  /-- The same openers sleep, so that the same ones were woken. -/
  sleepers : ∀ m, t.sleepers m = s.sleepers m
  /-- Every caller has come as far, with the same contexts in its hands. -/
  places : ∀ i, (t.placeOf i).muted = (s.placeOf i).muted
  /-- Whoever has a reply of a hook in one state has one in the other, or an error of a hook. -/
  outcome? : ∀ i, (t.outcome? i).map Outcome.muted = (s.outcome? i).map Outcome.muted
  contextsMade : t.contextsMade = s.contextsMade
  /-- The same contexts have come to their end, in the same order. -/
  ended : t.ended = s.ended
  clock : t.clock = s.clock

theorem outcome?_muted (s : State σ) (i : Nat) :
    s.muted.outcome? i = (s.outcome? i).map Outcome.muted := by
  rw [outcome?, outcome?, place?_muted]
  cases s.places[i]? with
  | none => rfl
  | some p => cases p <;> rfl

theorem ended_muted (s : State σ) : s.muted.ended = s.ended := by
  simp only [ended, muted, List.filterMap_filterMap]
  congr 1
  funext e
  cases e <;> rfl

theorem SameBooks.of_muted {s : State σ} {t : State τ} (h : s.muted = t.muted) :
    SameBooks s t := by
  -- what is left of a manager tells what the manager tells
  have htells : ∀ {α : Type} (f : Manager Unit → α) (g : Manager σ → α) (g' : Manager τ → α),
      (∀ M, f M.muted = g M) → (∀ M, f M.muted = g' M) →
        ∀ m, (t.manager? m).map g' = (s.manager? m).map g := by
    intro α f g g' hg hg' m
    have hm := congrArg (fun u => (u.manager? m).map f) h
    simp only [manager?_muted, Option.map_map] at hm
    rwa [show f ∘ Manager.muted = g from funext hg, show f ∘ Manager.muted = g' from funext hg',
      eq_comm] at hm
  exact {
    stats := htells _ _ _ Manager.stats_muted Manager.stats_muted
    atHand := htells (fun M => M.stock.contexts.map Context.id) _ _
      (fun M => by simp [Manager.muted, Function.comp_def])
      (fun M => by simp [Manager.muted, Function.comp_def])
    closed := htells Manager.closed _ _ (fun _ => rfl) (fun _ => rfl)
    poisoned := htells Manager.poisoned _ _ (fun _ => rfl) (fun _ => rfl)
    sleepers := fun m => by rw [← sleepers_muted t, ← h, sleepers_muted]
    places := fun i => by rw [← placeOf_muted t, ← h, placeOf_muted]
    outcome? := fun i => by rw [← outcome?_muted t, ← h, outcome?_muted]
    contextsMade := (congrArg State.contextsMade h).symm
    ended := by rw [← ended_muted t, ← h, ended_muted]
    clock := (congrArg State.clock h).symm }

/-- Runs that differ only in what hooks do lead to the same books. -/
theorem sameBooks_run {s : State σ} {t : State τ} (hooks : Hooks σ) (hooks' : Hooks τ)
    {a : List (Move σ)} {b : List (Move τ)} (hst : s.muted = t.muted)
    (hab : a.map Move.muted = b.map Move.muted) (ha : s.Spared hooks.invoke a)
    (hb : t.Spared hooks'.invoke b) :
    Option.Rel SameBooks (s.run hooks.invoke a) (t.run hooks'.invoke b) := by
  have hrun := run_muted hooks ha
  rw [hst, hab, run_muted hooks' hb] at hrun
  cases hs : s.run hooks.invoke a with
  | none =>
    rw [hs] at hrun
    rw [Option.map_eq_none_iff.1 hrun]
    exact .none
  | some s' =>
    rw [hs] at hrun
    obtain ⟨t', ht, hmuted⟩ := Option.map_eq_some_iff.1 hrun
    rw [ht]
    exact .some (.of_muted hmuted.symm)

end State

/-- A call comes to a reply or to an error of its own hook. -/
theorem Hooks.outcome (hooks : Hooks σ) (script : σ) (hook : String) (arguments : List HookArg) :
    (∃ reply, (hooks.invoke script hook arguments).outcome = .replied reply) ∨
      ∃ fault, (hooks.invoke script hook arguments).outcome = .failed (.hook hook fault) := by
  unfold Invocation.outcome
  cases h : (hooks.invoke script hook arguments).reply? with
  | none => exact .inl ⟨_, rfl⟩
  | some reply =>
    cases reply with
    | ok reply => exact .inl ⟨reply, rfl⟩
    | error e =>
      obtain ⟨fault, rfl⟩ := hooks.named _ _ _ e h
      exact .inr ⟨fault, rfl⟩

end Lending

namespace Script.Interpreter

variable {ω σ τ φ : Type} (ip : Interpreter ω σ τ φ)

/-- An error of a hook bears its name, be it that of looking the hook up or that of calling it. -/
theorem named_of_reply? {c : Loaded σ τ} {hook : String} {arguments : List HookArg} {e : Error}
    (h : (ip.reply? c hook arguments).1 = some (.error e)) : ∃ fault, e = .hook hook fault := by
  have herror : ∀ {α : Type} {result : Except HookFault α},
      result.mapError (Error.hook hook) = .error e → ∃ fault, e = .hook hook fault := by
    intro α result h
    obtain ⟨fault, -, hfault⟩ := mapError_eq_error_iff.1 h
    exact ⟨fault, hfault.symm⟩
  unfold reply? at h
  split at h
  next e' c' hlook =>
    obtain rfl := Except.error.inj (Option.some.inj h)
    exact herror (congrArg Prod.fst hlook)
  next => cases h
  next => exact herror (Option.some.inj h)

/-- The hooks that scripts define, whatever interpreter carries them out. -/
def hooks : Lending.Hooks (Loaded σ τ) where
  invoke := ip.invoke
  named _ _ _ _ h := ip.named_of_reply? h

end Script.Interpreter

namespace Lending
namespace State

variable {s t : State σ} {i n : Nat} {m : ManagerId} {M : Manager σ}

/-- What calls through a manager come to, and what they leave behind. -/
structure Answers (hooks : Hooks σ) (s : State σ) (m : ManagerId) (M : Manager σ) : Prop where
  /-- Whoever has a context comes to what its own hook replies, or to the error of it. -/
  own : ∀ i hook arguments c, s.placeOf i = .running m hook arguments c →
    ComesOn hooks.invoke (SparedRun hooks.invoke) s i
      (fun o => o = (hooks.invoke c.script hook arguments).outcome ∧
        ((∃ reply, o = .replied reply) ∨ ∃ fault, o = .failed (.hook hook fault))) 3
  /-- A call that is over leaves as many contexts in use as there were before it. -/
  active : ∀ i hook arguments moves t o M',
    s.run hooks.invoke (.begin i (.acquire m (.call hook arguments) none) :: moves) = some t →
      (∀ operation, .begin i operation ∉ moves) →
      s.OthersKeep hooks.invoke i m
        (.begin i (.acquire m (.call hook arguments) none) :: moves) →
      t.outcome? i = some o → (∀ payload, o ≠ .panicked payload) →
      t.manager? m = some M' → M'.poisoned = false → M'.stock.active = M.stock.active

/-- **What hooks do is nothing to the managers.**  Take two states that differ at most in what is up
to scripts and hooks, and two lists of moves that differ at most in the hooks that are called, in
their arguments and in what holders do with their scripts.  Whatever the hooks of the two do, and
whatever others do meanwhile, the books are the same after each move, unless the sink panics.  And
through a manager that is not poisoned each call comes to the reply of its own hook or to its error,
and leaves as many contexts in use as there were before it. -/
theorem Reachable.indifferent {s : State σ} {s' : State τ} {hooks : Hooks σ} {hooks' : Hooks τ}
    {a : List (Move σ)} {b : List (Move τ)} (hs : Reachable hooks.invoke s)
    (hsame : s.muted = s'.muted) (hab : a.map Move.muted = b.map Move.muted)
    (ha : s.Spared hooks.invoke a) (hb : s'.Spared hooks'.invoke b) :
    (∀ n, Option.Rel SameBooks (s.run hooks.invoke (a.take n)) (s'.run hooks'.invoke (b.take n))) ∧
      ∀ m M, s.manager? m = some M → M.poisoned = false → Answers hooks s m M := by
  constructor
  · intro n
    refine sameBooks_run hooks hooks' hsame ?_ (ha.take n) (hb.take n)
    rw [List.map_take, hab, List.map_take]
  · intro m M hM hp
    refine ⟨fun i hook arguments c hplace => ?_,
      fun i hook arguments moves t o M' hr hmoves hkeep ho hcalm hM' hp' =>
        hs.active_after_call hM hr hmoves hkeep ho hcalm hM' hp'⟩
    have howner : c.owner = some m := by
      have := hs.registered.marked_placeOf i
      rwa [hplace] at this
    have hcomes := hs.comes_spared hooks (i := i) (n := 2)
      (o := (hooks.invoke c.script hook arguments).outcome) hM hp
      (by rw [hplace]; exact rfl) (by simp [hplace, Place.course, howner])
    refine ⟨fun moves t o hr ho => ?_, hcomes.within, hcomes.ready⟩
    obtain rfl := hcomes.only moves t o hr ho
    exact ⟨rfl, hooks.outcome c.script hook arguments⟩

/-- Hooks that raise an error. -/
def failing : Hooks Unit where
  invoke _ hook _ :=
    { script := (), printed := [], reply? := some (.error (.hook hook (.raised "no"))) }
  named _ _ _ _ h := ⟨.raised "no", (Except.error.inj (Option.some.inj h)).symm⟩

/-- Hooks that are not defined. -/
def missing : Hooks Unit where
  invoke := inert
  named _ _ _ _ h := nomatch h

/-- The hypotheses are satisfiable: the hook of one caller fails or is not defined, another caller
sleeps meanwhile and then has the context, and the manager is shut down while its hook runs. -/
theorem indifferent_failing_or_missing :
    let before : String → List (Move Unit) := fun hook =>
      [.begin 0 (.establish 0 (.pool ⟨1, 1, 1⟩)), .run 0 0, .run 0 0,
        .begin 1 (.acquire ⟨1⟩ (.call hook []) none), .run 1 0]
    let moves : String → List (Move Unit) := fun hook =>
      [.begin 2 (.acquire ⟨1⟩ (.call hook []) none), .run 2 0, .run 1 0, .run 1 0, .run 2 0,
        .begin 3 (.shutDown ⟨1⟩), .run 3 0, .run 2 0, .run 2 0, .run 2 0]
    ∃ s s' t t' M, (initial [plain]).run failing.invoke (before "open") = some s ∧
      (initial [plain]).run missing.invoke (before "read") = some s' ∧
      s.run failing.invoke (moves "open") = some t ∧
      s'.run missing.invoke (moves "read") = some t' ∧
      SameBooks t t' ∧ s.manager? ⟨1⟩ = some M ∧ Answers failing s ⟨1⟩ M ∧
      t.outcome? 1 = some (.failed (.hook "open" (.raised "no"))) ∧
      t'.outcome? 1 = some (.replied .notImplemented) ∧
      (t.manager? ⟨1⟩).map Manager.stats = some ⟨0, 0, 1, 1, 1, 1⟩ := by
  intro before moves
  obtain ⟨s, hs⟩ : ∃ s, (initial [plain]).run failing.invoke (before "open") = some s := ⟨_, rfl⟩
  obtain ⟨s', hs'⟩ : ∃ s, (initial [plain]).run missing.invoke (before "read") = some s := ⟨_, rfl⟩
  obtain ⟨t, ht⟩ : ∃ t, s.run failing.invoke (moves "open") = some t := by
    obtain rfl := Option.some.inj hs
    exact ⟨_, rfl⟩
  obtain ⟨t', ht'⟩ : ∃ t, s'.run missing.invoke (moves "read") = some t := by
    obtain rfl := Option.some.inj hs'
    exact ⟨_, rfl⟩
  have hsame : s.muted = s'.muted := by
    obtain rfl := Option.some.inj hs
    obtain rfl := Option.some.inj hs'
    rfl
  -- the sink is not armed anywhere
  have hspared : s.Spared failing.invoke (moves "open") ∧
      s'.Spared missing.invoke (moves "read") := by
    obtain rfl := Option.some.inj hs
    obtain rfl := Option.some.inj hs'
    constructor <;>
      exact .cons rfl (fun _ => rfl) (.cons rfl (fun _ => rfl) (.cons rfl (fun _ => rfl)
        (.cons rfl (fun _ => rfl) (.cons rfl (fun _ => rfl) (.cons rfl (fun _ => rfl)
        (.cons rfl (fun _ => rfl) (.cons rfl (fun _ => rfl) (.cons rfl (fun _ => rfl)
        (.cons rfl (fun _ => rfl) trivial)))))))))
  have hreach : Reachable failing.invoke s := ⟨[plain], before "open", hs⟩
  have hmoves : (moves "open").map Move.muted = (moves "read").map Move.muted := rfl
  obtain ⟨hbooks, hanswers⟩ := hreach.indifferent hsame hmoves hspared.1 hspared.2
  have hend := hbooks 10
  rw [show (moves "open").take 10 = moves "open" from rfl,
    show (moves "read").take 10 = moves "read" from rfl, ht, ht'] at hend
  cases hend with
  | some hend =>
    obtain rfl := Option.some.inj hs
    obtain rfl := Option.some.inj hs'
    obtain rfl := Option.some.inj ht
    obtain rfl := Option.some.inj ht'
    exact ⟨_, _, _, _, _, rfl, rfl, rfl, rfl, hend, rfl, hanswers _ _ rfl rfl, rfl, rfl, rfl⟩

end State
end Lending
end HookPool
