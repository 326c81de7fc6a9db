/-
# Runs on which the sink does not panic

`Spared` says of a state and moves that the sink does not panic on the way that the moves take.
Whatever hooks do on it, what is left of the states without them goes its own way (`run_muted`).

Nothing but a sink that panics poisons a manager (`Reachable.sound_of_spares`).  So a caller that has
its context goes on with its call and comes to the result of its own hook, whatever others do
meanwhile (`Reachable.comes_spared`): be it that the manager is shut down, or that others wait.
-/
import HookPool.Proofs.Lending.Course
import HookPool.Proofs.Lending.MutedMoves
import HookPool.Proofs.Lending.Tame

namespace HookPool
namespace Lending

variable {σ : Type}

namespace State

variable {invoke : Invoke σ} {s t : State σ} {mv : Move σ} {moves : List (Move σ)} {i n : Nat}
  {p : Place σ} {u : Upshot σ} {o : Outcome} {m : ManagerId} {M M' : Manager σ}

/-! ## Runs on which the sink does not panic -/

/-- The sink does not panic on the way that the moves take from the state. -/
def Spared (invoke : Invoke σ) (s : State σ) : List (Move σ) → Prop
  | [] => True
  | mv :: moves => ∀ t, s.move invoke mv = some t → Spares s t ∧ t.Spared invoke moves

/-- The moves lead from a state to another one, and the sink does not panic on the way. -/
def SparedRun (invoke : Invoke σ) (s : State σ) (moves : List (Move σ)) (t : State σ) : Prop :=
  s.run invoke moves = some t ∧ s.Spared invoke moves

theorem Spared.take (h : s.Spared invoke moves) (n : Nat) : s.Spared invoke (moves.take n) := by
  induction moves generalizing s n with
  | nil => simpa using h
  | cons mv moves ih =>
    cases n with
    | zero => trivial
    | succ n => exact fun t ht => ⟨(h t ht).1, ih (h t ht).2 n⟩

theorem Spared.cons (hm : s.move invoke mv = some t) (hspare : Spares s t)
    (h : t.Spared invoke moves) : s.Spared invoke (mv :: moves) := by
  intro u hu
  obtain rfl := Option.some.inj (hm.symm.trans hu)
  exact ⟨hspare, h⟩

/-- **What is left of a state without hooks goes its own way on whole runs.** -/
theorem run_muted (hooks : Hooks σ) (h : s.Spared hooks.invoke moves) :
    s.muted.run mute (moves.map Move.muted) = (s.run hooks.invoke moves).map muted := by
  induction moves generalizing s with
  | nil => rfl
  | cons mv moves ih =>
    rw [List.map_cons, run, run, move_muted hooks fun t ht => (h t ht).1]
    cases hm : s.move hooks.invoke mv with
    | none => rfl
    | some t => exact ih (h t hm).2

/-! ## A manager is poisoned only by the sink -/

theorem ask_managers {r : Request} (h : Spares s (s.ask i r M)) :
    (s.ask i r M).managers = s.managers ∨ ∃ stock,
      (s.ask i r M).managers = (s.setManager r.manager (some (M.withStock stock))).managers := by
  unfold ask at h ⊢
  split
  · exact .inl (managers_put s i _)
  split
  · exact .inl (managers_put s i _)
  rw [if_neg ‹_›, if_neg ‹_›] at h
  cases ho : M.stock.offer with
  | lent c rest =>
    rw [ho] at h
    dsimp only at h ⊢
    obtain hr | ⟨ha, v, hr, hv⟩ := report_tells (s.setManager r.manager (some (M.withStock rest)))
      (lentEvent r.manager rest c)
    · rw [hr]
      exact .inr ⟨rest, managers_put _ i _⟩
    · rw [hr] at h
      exact absurd (h (by simpa using hv)) ha
  | reserved rest => exact .inr ⟨rest, managers_put _ i _⟩
  | full =>
    left
    dsimp only
    unfold await
    split
    · exact managers_put s i _
    · split <;> exact managers_put s i _

theorem takeBack_managers {aim : Aim} {c : Context σ} {chosen : Nat}
    (h : Spares s (s.takeBack i m aim c M chosen)) :
    ∃ stock, (s.takeBack i m aim c M chosen).managers =
      (s.setManager m (some (M.withStock stock))).managers := by
  unfold takeBack at h ⊢
  dsimp only at h ⊢
  split
  · rw [if_pos ‹_›] at h
    obtain hr | ⟨ha, v, hr, hv⟩ :=
      reportFor_tells (s.setManager m (some (M.withStock M.stock.vacate))) aim.isUnwinding
        (keptEvent m M.stock.vacate c)
    · refine ⟨M.stock.vacate.put c, ?_⟩
      rw [hr]
      simp [conclude_ok, wakeOne_eq, setManager, record]
    · rw [hr] at h
      exact absurd (h (by simpa using hv)) ha
  · refine ⟨M.stock.vacate, ?_⟩
    split <;> simp [wakeOne_eq]

/-- A manager is sound after a change of one that leaves a sound one sound. -/
theorem sound_of_lookUp {k : ManagerId} {N N' : Manager σ} (hM : s.manager? m = some M)
    (hp : M.poisoned = false) (hN : s.manager? k = some N)
    (hM' : (Shift.replace k (some N')).lookUp m (some M) = some M')
    (he : N'.poisoned = N.poisoned) : M'.poisoned = false := by
  simp only [Shift.lookUp] at hM'
  split at hM'
  · subst_vars
    obtain rfl := Option.some.inj hM'
    obtain rfl := Option.some.inj (hM.symm.trans hN)
    exact he.trans hp
  · obtain rfl := Option.some.inj hM'
    exact hp

/-- A turn that may poison a manager is that of a caller that asks for a context or gives one
back. -/
theorem Turn.sound (h : Turn invoke s i mv p u) (hM : s.manager? m = some M)
    (hp : M.poisoned = false) (hM' : u.shift.lookUp m (some M) = some M') :
    M'.poisoned = false ∨ ∃ chosen, mv = .run i chosen ∧
      ((∃ r, p = .asking r ∧ r.manager = m) ∨
        ∃ aim c, p = .returning m aim c ∧ c.owner = some m) := by
  have hsame : some M = some M' → M'.poisoned = false := fun h => Option.some.inj h ▸ hp
  -- another manager is poisoned
  have hother : ∀ {k : ManagerId} {N : Manager σ}, m ≠ k →
      (Shift.replace k (some N)).lookUp m (some M) = some M' → M'.poisoned = false := by
    intro k N hk hM'
    rw [Shift.lookUp, if_neg hk] at hM'
    exact hsame hM'
  cases h with
  | beginning h =>
    cases h with
    | drops hm =>
      simp only [Shift.lookUp] at hM'
      split at hM'
      · cases hM'
      · exact .inl (hsame hM')
    | _ => exact .inl (hsame hM')
  | @opening chosen _ _ h =>
    cases h with
    | @lentCrash r =>
      by_cases hk : m = r.manager
      · exact .inr ⟨chosen, rfl, .inl ⟨r, rfl, hk.symm⟩⟩
      · exact .inl (hother hk hM')
    | lent hm | reserved hm | counted hm | countedCrash hm | gaveUp hm =>
      exact .inl (sound_of_lookUp hM hp hm hM' rfl)
    | _ => exact .inl (hsame hM')
  | @givingBack chosen _ _ h =>
    cases h with
    | @keptCrash k _ aim c hm ho =>
      by_cases hk : m = k
      · exact .inr ⟨chosen, rfl, .inr ⟨aim, c, by rw [hk], by rw [hk, ho]⟩⟩
      · exact .inl (hother hk hM')
    | kept hm | turnedAway hm | evicted hm => exact .inl (sound_of_lookUp hM hp hm hM' rfl)
    | _ => exact .inl (hsame hM')
  | stopping h =>
    cases h with
    | stopped hm | drained hm | drainCrash hm => exact .inl (sound_of_lookUp hM hp hm hM' rfl)
    | _ => exact .inl (hsame hM')
  | making h =>
    cases h with
    | @made _ plan =>
      simp only [Shift.lookUp] at hM'
      split at hM'
      · obtain rfl := Option.some.inj hM'
        cases plan <;> exact .inl rfl
      · exact .inl (hsame hM')
    | _ => exact .inl (hsame hM')
  | dealing h => cases h <;> exact .inl (hsame hM')
  | works => exact .inl (hsame hM')
  | rousing => exact .inl (hsame hM')

/-- **A sink that does not panic poisons no manager.** -/
theorem Reachable.sound_of_spares (hs : Reachable invoke s) (hm : s.move invoke mv = some t)
    (hspare : Spares s t) (hM : s.manager? m = some M) (hp : M.poisoned = false)
    (hM' : t.manager? m = some M') : M'.poisoned = false := by
  -- the manager is changed only in its stock
  have hstock : ∀ stock, t.managers = (s.setManager m (some (M.withStock stock))).managers →
      M'.poisoned = false := by
    intro stock h
    rw [manager?_of_managers_eq h, manager?_setManager hM] at hM'
    obtain rfl := Option.some.inj hM'
    exact hp
  obtain ⟨k, u, hk, hu, hf⟩ | hidle := move_turn hm
  · have hlook := hs.registered.manager? hu hf m
    rw [hM', hM] at hlook
    rcases hu.sound hM hp hlook.symm with hsound | ⟨chosen, rfl, ⟨r, hr, rfl⟩ | ⟨aim, c, hr, ho⟩⟩
    · exact hsound
    · have ht : s.ask k r M = t := by
        simpa [State.move, step?, mem_places_of_placeOf hr (by simp), withManager, hM] using hm
      subst ht
      rcases ask_managers hspare with h | ⟨stock, h⟩
      · rw [manager?_of_managers_eq h, hM] at hM'
        exact Option.some.inj hM' ▸ hp
      · exact hstock stock h
    · have ht : s.giveBack k m aim c M chosen = t := by
        simpa [State.move, step?, mem_places_of_placeOf hr (by simp), withManager, hM] using hm
      subst ht
      have htake : s.giveBack k m aim c M chosen = s.takeBack k m aim c M chosen := by
        rw [giveBack, if_neg (not_not_intro ho), if_neg (by simp [hp])]
      rw [htake] at hspare hstock
      obtain ⟨stock, h⟩ := takeBack_managers hspare
      exact hstock stock h
  · rw [manager?_of_managers_eq hidle.managers, hM] at hM'
    exact Option.some.inj hM' ▸ hp

/-! ## What a call comes to -/

theorem placeOf_muted (s : State σ) (i : Nat) : s.muted.placeOf i = (s.placeOf i).muted := by
  rw [placeOf, placeOf, place?_muted]
  cases s.places[i]? <;> rfl

theorem inCall_of_muted (h : p.muted.InCall m) : p.InCall m := by
  have hcalls : ∀ {r : Request}, r.muted.Calls m → r.Calls m := by
    rintro ⟨k, purpose, deadline⟩ ⟨hk, hd, hook, arguments, hp⟩
    refine ⟨hk, hd, ?_⟩
    cases purpose with
    | call hook arguments => exact ⟨hook, arguments, rfl⟩
    | _ => cases hp
  cases p with
  | asking r | asleep r | building r | grown r c | abandoned r e => exact hcalls h
  | running k hook arguments c => exact h
  | returning k aim c =>
    cases aim with
    | reply reply => cases reply <;> exact h
    | _ => cases h
  | evicting k aim c =>
    cases aim with
    | reply reply => cases reply <;> exact h
    | _ => cases h
  | finished o =>
    rintro payload rfl
    exact h payload rfl
  | _ => cases h

/-- **Whoever has its context goes on with its call**, unless the sink panics. -/
theorem inCall_of_spares (hooks : Hooks σ) (hr : s.Registered)
    (hm : s.move hooks.invoke mv = some t) (hspare : Spares s t) (hturn : mv.isTurnOf i = true)
    (hcall : (s.placeOf i).InCall m)
    (hc : (s.placeOf i).course hooks.invoke false m = some (o, n + 1)) :
    (t.placeOf i).InCall m := by
  have hat := mem_places_of_placeOf (s := s) (i := i) rfl (not_finished_of_course hc)
  have hmuted : s.muted.move mute mv.muted = some t.muted := by
    rw [move_muted hooks fun v hv => Option.some.inj (hm.symm.trans hv) ▸ hspare, hm,
      Option.map_some]
  -- nobody comes to grief in what is left of the state
  suffices hgoes : GoesOn s.muted i m t.muted by
    obtain ⟨t₀, q, ht, hsame, hq⟩ := hgoes
    have hi : i ≤ t₀.places.length := by
      rw [hsame.length, length_places_muted]
      exact Nat.le_of_lt (List.getElem?_eq_some_iff.1 hat).1
    refine inCall_of_muted ?_
    rwa [← placeOf_muted, ht, placeOf_put hi]
  obtain ⟨-, u, -, hu, -, -⟩ | ⟨hno, -⟩ := move_cases hm i
  case inr => rw [hturn] at hno; cases hno
  have hmark := hr.marked_placeOf i
  generalize s.placeOf i = p at hat hu hcall hc hmark
  cases p with
  | running k hook arguments c =>
    obtain rfl : k = m := hcall
    obtain ⟨chosen, rfl⟩ := hu.runs rfl
    simp only [Move.muted, State.move, step?, place?_muted, hat, Option.map_some, Place.muted]
      at hmuted
    rw [← Option.some.inj hmuted]
    exact callHook_goesOn rfl mute i k "" [] c.muted
  | returning k aim c =>
    cases aim with
    | reply reply =>
      obtain rfl : k = m := hcall
      obtain ⟨chosen, rfl⟩ := hu.runs rfl
      have ho : c.muted.owner = some k := hmark.resolve_left (by simp)
      simp only [Move.muted, State.move, step?, place?_muted, hat, Option.map_some, Place.muted]
        at hmuted
      obtain ⟨N, -, ht⟩ := withManager_eq_some hmuted
      rw [← ht]
      cases reply <;> exact giveBack_goesOn rfl i k _ ho N chosen
    | _ => cases hcall
  | evicting k aim c =>
    cases aim with
    | reply reply =>
      obtain rfl : k = m := hcall
      obtain ⟨chosen, rfl⟩ := hu.runs rfl
      simp only [Move.muted, State.move, step?, place?_muted, hat, Option.map_some, Place.muted]
        at hmuted
      obtain ⟨N, -, ht⟩ := withManager_eq_some hmuted
      rw [← ht]
      cases reply <;> exact evict_goesOn rfl i k _ c.muted N
    | _ => cases hcall
  | asking r => simp [Place.course] at hc
  | draining k active first rest => cases hcall
  | _ => cases hc

/-- **A caller that has its context comes to the result of its own hook**, as long as the sink does
not panic: the others cannot poison the manager then. -/
theorem Reachable.comes_spared (hooks : Hooks σ) (hs : Reachable hooks.invoke s)
    (hM : s.manager? m = some M) (hp : M.poisoned = false) (hcall : (s.placeOf i).InCall m)
    (hc : (s.placeOf i).course hooks.invoke false m = some (o, n + 1)) :
    ComesOn hooks.invoke (SparedRun hooks.invoke) s i (· = o) (n + 1) := by
  refine ComesOn.of_rank (R := Spares) (P := fun s n => i < s.places.length ∧
    (s.placeOf i).course hooks.invoke false m = some (o, n) ∧
      (0 < n → Reachable hooks.invoke s ∧ (s.placeOf i).InCall m ∧
        ∃ M, s.manager? m = some M ∧ M.poisoned = false)) ?here ?next ?done ?busy ?step
    ⟨(List.getElem?_eq_some_iff.1 (mem_places_of_placeOf rfl (not_finished_of_course hc))).1, hc,
      fun _ => ⟨hs, hcall, M, hM, hp⟩⟩
  case here => exact fun s u hr => Option.some.inj hr.1
  case next =>
    rintro s mv moves u ⟨hr, hspare⟩
    obtain ⟨t, hm, hr⟩ := run_cons hr
    exact ⟨t, hm, (hspare t hm).1, hr, (hspare t hm).2⟩
  case done =>
    rintro s ⟨hi, hc, -⟩
    exact ⟨o, outcome?_of_placeOf (finished_of_course hc) hi, rfl⟩
  case busy =>
    rintro s n ⟨hi, hc, h⟩
    obtain ⟨-, -, M, hM, -⟩ := h (Nat.succ_pos n)
    exact ⟨outcome?_eq_none rfl (not_finished_of_course hc),
      possible_of_course hM (mem_places_of_placeOf rfl (not_finished_of_course hc)) hc⟩
  case step =>
    rintro s t mv n ⟨hi, hc, h⟩ hspare hm
    obtain ⟨hs, hcall, M, hM, hp⟩ := h (Nat.succ_pos n)
    have hi' := Nat.lt_of_lt_of_le hi (length_places_le hm)
    obtain ⟨M', hM'⟩ := manager?_of_uses hs.registered hm hM
      (mem_places_of_placeOf rfl (not_finished_of_course hc)) (uses_of_course hc)
    have hp' := hs.sound_of_spares hm hspare hM hp hM'
    have hthere : Reachable hooks.invoke t ∧ ∃ M', t.manager? m = some M' ∧ M'.poisoned = false :=
      ⟨hs.move hm, M', hM', hp'⟩
    obtain ⟨hturn, u, -, hu, -, hplace⟩ | ⟨hturn, hplace | ⟨r, hr, -⟩⟩ := move_cases hm i
    · have hcall' := inCall_of_spares hooks hs.registered hm hspare hturn hcall hc
      have hopen : ∀ N, s.manager? m = some N → false = true → N.closed = true := nofun
      obtain ⟨n', hle, hc'⟩ := hu.course (hplace ▸ hcall'.calm)
        (fun N hN => Option.some.inj (hM.symm.trans hN) ▸ hp) hopen hc
      rw [← hplace] at hc'
      exact ⟨n', by rwa [hturn, if_pos rfl], hi', hc', fun _ => ⟨hthere.1, hcall', hthere.2⟩⟩
    · rw [← hplace] at hc hcall
      exact ⟨n + 1, by rw [hturn]; exact Nat.le_refl _, hi', hc,
        fun _ => ⟨hthere.1, hcall, hthere.2⟩⟩
    · rw [hr] at hc
      simp [Place.course] at hc

end State
end Lending
end HookPool
