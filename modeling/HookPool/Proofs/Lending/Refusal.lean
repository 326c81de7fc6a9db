/-
# Managers that turn openers away

A manager turns every opener away that comes to have its lock, once it is poisoned or closed;
`Manager.refusal?` is what it says.  That never changes: what is poisoned stays poisoned, and what
is closed is poisoned no more, since only lending and keeping a context report anything under the
lock (`Entry.refusal?_eq`).

So on any run from there, whoever comes to grief on it, nobody falls asleep, nobody gets a slot, and
a context gets only into the hands of a caller that has built it; whoever asks is turned away in its
next turn.
-/
import HookPool.Proofs.Lending.Caller
import HookPool.Proofs.Lending.Ledger

namespace HookPool
namespace Lending

variable {σ : Type}

/-- What a manager says to an opener, if it turns all of them away. -/
def Manager.refusal? (M : Manager σ) : Option Error :=
  if M.poisoned then some .lockFailed else if M.closed then some .managerClosed else none

theorem Manager.refusal?_eq_none {M : Manager σ} :
    M.refusal? = none ↔ M.poisoned = false ∧ M.closed = false := by
  cases hp : M.poisoned <;> cases hc : M.closed <;> simp [refusal?, hp, hc]

theorem Manager.refusal?_of_poisoned {M : Manager σ} (h : M.poisoned = true) :
    M.refusal? = some .lockFailed := if_pos h

theorem Manager.refusal?_of_closed {M : Manager σ} (hp : M.poisoned = false)
    (hc : M.closed = true) : M.refusal? = some .managerClosed := by
  simp [refusal?, hp, hc]

/-- **A manager that turns openers away does so for ever, with the same words.** -/
theorem Entry.refusal?_eq {M M' : Manager σ} {n n' : Tally} {panics locked : Prop} {d : Nat}
    {e : Error} (he : Entry panics locked d M n M' n') (h : M.refusal? = some e) :
    M'.refusal? = some e := by
  have hopen : M.poisoned = false → M.closed ≠ false := by
    intro hp hc
    rw [Manager.refusal?_eq_none.2 ⟨hp, hc⟩] at h
    cases h
  have hkeeps : M.poisoned = false → M.keeps ≠ true := by
    intro hp hk
    rw [Manager.keeps, Bool.and_eq_true, Bool.not_eq_true'] at hk
    exact hopen hp hk.1
  cases he with
  | lent _ hp hc => exact absurd hc (hopen hp)
  | lentCrash _ hp hc => exact absurd hc (hopen hp)
  | reserved _ hp hc => exact absurd hc (hopen hp)
  | kept _ hp hk => exact absurd hk (hkeeps hp)
  | keptCrash _ hp hk => exact absurd hk (hkeeps hp)
  | shut _ hp =>
    have hc : M.closed = true := by simpa using hopen hp
    rw [Manager.refusal?_of_closed hp hc] at h
    obtain rfl := Option.some.inj h
    exact Manager.refusal?_of_closed hp rfl
  | _ => exact h

namespace State

variable {invoke : Invoke σ} {s t : State σ} {mv : Move σ} {moves : List (Move σ)} {i : Nat}
  {p : Place σ} {u : Upshot σ} {o : Outcome} {m : ManagerId} {M : Manager σ} {r : Request}
  {e : Error}

/-! ## What a turn takes from a manager -/

/-- **An opener falls asleep only on a manager that turns nobody away.** -/
theorem Turn.asleep (h : Turn invoke s i mv p u) (hu : u.place = .asleep r) :
    ∃ M, s.manager? r.manager = some M ∧ M.refusal? = none := by
  have hserved (r' : Request) (c : Context σ) : r'.served c ≠ .asleep r :=
    r'.served_induction c (by simp) (by simp)
  cases h with
  | opening h =>
    cases h with
    | fellAsleep hM hp hc => cases hu; exact ⟨_, hM, Manager.refusal?_eq_none.2 ⟨hp, hc⟩⟩
    | lent => exact absurd hu (hserved _ _)
    | counted => exact absurd hu (hserved _ _)
    | _ => cases hu
  | givingBack h => cases h <;> cases hu
  | stopping h => cases h <;> cases hu
  | making h => cases h <;> cases hu
  | beginning h => cases h <;> cases hu
  | dealing h => cases h <;> cases hu
  | works => cases hu
  | rousing => cases hu

/-- **Nobody gets a slot of a manager that turns openers away.** -/
theorem Turn.builds (h : Turn invoke s i mv p u)
    (hbar : ∀ M, s.manager? m = some M → M.refusal? ≠ none)
    (hb : 0 < u.place.builds m) : 0 < p.builds m ∧ u.place.request? = p.request? := by
  have hserved (r : Request) (c : Context σ) : (r.served c).builds m = 0 :=
    r.served_induction c (fun _ => rfl) (fun _ _ => rfl)
  cases h with
  | opening h =>
    cases h with
    | lent => rw [hserved] at hb; cases hb
    | @reserved r M rest hM hp hc =>
      have hrm : r.manager = m := by
        refine Decidable.byContradiction fun hne => ?_
        rw [Place.builds, if_neg hne] at hb
        cases hb
      exact absurd (Manager.refusal?_eq_none.2 ⟨hp, hc⟩) (hbar M (hrm ▸ hM))
    | built => exact ⟨hb, rfl⟩
    | buildFailed => exact ⟨hb, rfl⟩
    | counted => rw [hserved] at hb; cases hb
    | _ => cases hb
  | givingBack h => cases h <;> cases hb
  | stopping h => cases h <;> cases hb
  | making h => cases h <;> cases hb
  | beginning h => cases h <;> cases hb
  | dealing h => cases h <;> cases hb
  | works => cases hb
  | rousing => cases hb

theorem holds_served {r : Request} {c : Context σ} (h : c.owner = some r.manager)
    (m : ManagerId) : (r.served c).holds m = if r.manager = m then 1 else 0 := by
  have hheld := congrArg Tally.held (tally_served h m false)
  rw [show ((r.served c).tally m false).held = (r.served c).holds m from rfl] at hheld
  rw [hheld]
  split <;> rfl

/-- **A context of a manager that turns openers away gets only into the hands of a caller that has
built it.** -/
theorem Turn.holds (hr : s.Registered) (h : Turn invoke s i mv p u) (hmark : p.Marked)
    (hbar : ∀ M, s.manager? m = some M → M.refusal? ≠ none)
    (hlt : p.holds m < u.place.holds m) : ∃ r c, p = .grown r c ∧ r.manager = m := by
  cases h with
  | opening h =>
    cases h with
    | @lent r M c rest hM hp hc ho =>
      rw [holds_served (hr.owner_of_lent hM ho)] at hlt
      split at hlt
      · rename_i hrm
        exact absurd (Manager.refusal?_eq_none.2 ⟨hp, hc⟩) (hbar M (hrm ▸ hM))
      · cases hlt
    | @counted r M c hM =>
      rw [holds_served hmark] at hlt
      split at hlt
      · exact ⟨r, c, rfl, ‹_›⟩
      · cases hlt
    | _ => cases hlt
  | givingBack h => cases h <;> simp at hlt
  | stopping h => cases h <;> simp at hlt
  | making h =>
    cases h with
    | created _ _ ho => simp [ho] at hlt
    | _ => simp at hlt
  | beginning h => cases h <;> simp at hlt
  | dealing h => cases h <;> simp at hlt
  | works => simp at hlt
  | rousing => simp at hlt

/-- **Whoever asks a manager that turns openers away is turned away.** -/
theorem Turn.turned_down (h : Turn invoke s i mv (.asking r) u) (hM : s.manager? r.manager = some M)
    (he : M.refusal? = some e) : u = { place := .finished (.failed e) } := by
  have hopen : ∀ {M₀ : Manager σ}, s.manager? r.manager = some M₀ → M₀.poisoned = false →
      M₀.closed ≠ false := by
    intro M₀ hM₀ hp hc
    obtain rfl := Option.some.inj (hM.symm.trans hM₀)
    rw [Manager.refusal?_eq_none.2 ⟨hp, hc⟩] at he
    cases he
  obtain ⟨_, -, h⟩ := h.of_asking
  cases h with
  | barred hM₀ hp =>
    obtain rfl := Option.some.inj (hM.symm.trans hM₀)
    obtain rfl := Option.some.inj ((Manager.refusal?_of_poisoned hp).symm.trans he)
    rfl
  | shutOut hM₀ hp hc =>
    obtain rfl := Option.some.inj (hM.symm.trans hM₀)
    obtain rfl := Option.some.inj ((Manager.refusal?_of_closed hp hc).symm.trans he)
    rfl
  | lent hM₀ hp hc => exact absurd hc (hopen hM₀ hp)
  | lentCrash hM₀ hp hc => exact absurd hc (hopen hM₀ hp)
  | reserved hM₀ hp hc => exact absurd hc (hopen hM₀ hp)
  | fellAsleep hM₀ hp hc => exact absurd hc (hopen hM₀ hp)
  | timedOut hM₀ hp hc => exact absurd hc (hopen hM₀ hp)

/-- Whoever asks is turned away there and then, whatever else goes on. -/
theorem ask_eq_finish (he : M.refusal? = some e) (s : State σ) (i : Nat) (r : Request) :
    s.ask i r M = s.finish i (.failed e) := by
  rw [Manager.refusal?] at he
  rw [ask]
  split at he
  · obtain rfl := Option.some.inj he
    exact if_pos ‹_›
  · split at he
    · obtain rfl := Option.some.inj he
      rw [if_neg ‹_›, if_pos ‹_›]
    · cases he

/-! ## Runs from there -/

/-- The manager was made, and turns openers away with `e` or is gone. -/
structure Barred (invoke : Invoke σ) (s : State σ) (m : ManagerId) (e : Error) : Prop where
  reachable : Reachable invoke s
  made : ¬s.Fresh m
  refuses : ∀ M, s.manager? m = some M → M.refusal? = some e

namespace Barred

theorem of_manager (hs : Reachable invoke s) (hM : s.manager? m = some M)
    (he : M.refusal? = some e) : Barred invoke s m e := by
  refine ⟨hs, hs.registered.not_fresh hM, fun M' hM' => ?_⟩
  obtain rfl := Option.some.inj (hM.symm.trans hM')
  exact he

theorem ne_none (h : Barred invoke s m e) : ∀ M, s.manager? m = some M → M.refusal? ≠ none := by
  intro M hM hnone
  rw [h.refuses M hM] at hnone
  cases hnone

/-- **Whatever happens, a manager goes on turning openers away.** -/
theorem move (h : Barred invoke s m e) (hm : s.move invoke mv = some t) : Barred invoke t m e := by
  refine ⟨h.reachable.move hm, fun hf => h.made (hf.of_move hm), fun M' hM' => ?_⟩
  cases hM : s.manager? m with
  | none =>
    exact absurd (ledger_start h.reachable.registered hm hM hM' fun _ => false).1 h.made
  | some M =>
    exact (ledger_step h.reachable.registered hm hM hM' fun _ => false).refusal?_eq
      (h.refuses M hM)

theorem run (h : Barred invoke s m e) (hr : s.run invoke moves = some t) : Barred invoke t m e :=
  run_induction (P := fun s => Barred invoke s m e) (fun _ _ _ h hm => h.move hm) h hr

/-- **Whoever sleeps slept before.** -/
theorem asleep (h : Barred invoke s m e) (hr : s.run invoke moves = some t)
    (hi : t.placeOf i = .asleep r) (hrm : r.manager = m) : s.placeOf i = .asleep r := by
  induction moves generalizing s with
  | nil =>
    obtain rfl := Option.some.inj hr
    exact hi
  | cons mv moves ih =>
    obtain ⟨t₁, hm, hr⟩ := run_cons hr
    have hlater := ih (h.move hm) hr
    obtain ⟨-, u, -, hu, -, hplace⟩ | ⟨-, hplace | ⟨r', -, hplace⟩⟩ := move_cases hm i
    · obtain ⟨M, hM, hnone⟩ := hu.asleep (hplace.symm.trans hlater)
      exact absurd hnone (h.ne_none M (hrm ▸ hM))
    · exact hplace.symm.trans hlater
    · rw [hlater] at hplace
      cases hplace

/-- **Whoever builds had its slot before.** -/
theorem builds (h : Barred invoke s m e) (hr : s.run invoke moves = some t)
    (hb : 0 < (t.placeOf i).builds m) :
    0 < (s.placeOf i).builds m ∧ (t.placeOf i).request? = (s.placeOf i).request? := by
  induction moves generalizing s with
  | nil =>
    obtain rfl := Option.some.inj hr
    exact ⟨hb, rfl⟩
  | cons mv moves ih =>
    obtain ⟨t₁, hm, hr⟩ := run_cons hr
    obtain ⟨hbt, hreq⟩ := ih (h.move hm) hr
    rw [hreq]
    obtain ⟨-, u, -, hu, -, hplace⟩ | ⟨-, hplace | ⟨r, -, hplace⟩⟩ := move_cases hm i
    · rw [hplace] at hbt ⊢
      exact hu.builds h.ne_none hbt
    · rw [hplace] at hbt ⊢
      exact ⟨hbt, rfl⟩
    · rw [hplace] at hbt
      cases hbt

/-- **A context gets only into the hands of a caller that has built it.** -/
theorem holds (h : Barred invoke s m e) (hm : s.move invoke mv = some t)
    (hlt : (s.placeOf i).holds m < (t.placeOf i).holds m) :
    ∃ r c, s.placeOf i = .grown r c ∧ r.manager = m := by
  have hr := h.reachable.registered
  obtain ⟨-, u, -, hu, -, hplace⟩ | ⟨-, hplace | ⟨r, -, hplace⟩⟩ := move_cases hm i
  · rw [hplace] at hlt
    exact hu.holds hr (hr.marked_placeOf i) h.ne_none hlt
  · rw [hplace] at hlt
    exact absurd hlt (Nat.lt_irrefl _)
  · rw [hplace] at hlt
    cases hlt

/-- **Whoever asks is turned away in its next turn**, which it need not wait for. -/
theorem asking (h : Barred invoke s m e) (hM : s.manager? m = some M)
    (hi : s.placeOf i = .asking r) (hrm : r.manager = m) :
    (∀ chosen, s.move invoke (.run i chosen) = some (s.finish i (.failed e))) ∧
      Ends invoke s i (· = .failed e) 1 := by
  subst hrm
  constructor
  · intro chosen
    have hat := mem_places_of_placeOf hi nofun
    simp only [State.move, step?, hat, withManager, hM, Option.map_some]
    rw [ask_eq_finish (h.refuses M hM)]
  · refine Ends.of_place (m := r.manager) (I := fun s => Barred invoke s r.manager e)
      (fun _ h => h.reachable) (fun _ _ _ h hm => h.move hm) rfl (by simp [Place.uses]) ?_ h hM hi
    intro s mv u h hu
    obtain ⟨M, hM⟩ : ∃ M, s.manager? r.manager = some M := by
      obtain ⟨_, -, hu⟩ := hu.of_asking
      cases hu <;> exact ⟨_, ‹_›⟩
    rw [hu.turned_down hM (h.refuses M hM)]
    exact ⟨_, rfl, rfl⟩

/-- **Whoever waits is turned away and comes to nothing else**, and until then it waits. -/
theorem waiting (h : Barred invoke s m e) (hM : s.manager? m = some M)
    (hi : s.placeOf i = .asleep r ∨ s.placeOf i = .asking r) (hrm : r.manager = m)
    (hr : s.run invoke moves = some t) :
    (s.outcomeOn invoke i moves = none ∧
        (t.placeOf i = .asleep r ∨ t.placeOf i = .asking r)) ∨
      s.outcomeOn invoke i moves = some (.failed e) := by
  have hnone : s.outcome? i = none := by
    rcases hi with hi | hi <;> exact outcome?_eq_none hi nofun
  induction moves generalizing s M with
  | nil =>
    obtain rfl := Option.some.inj hr
    exact .inl ⟨hnone, hi⟩
  | cons mv moves ih =>
    obtain ⟨t₁, hm, hr⟩ := run_cons hr
    rw [outcomeOn_cons hnone hm]
    have hat : ∃ p, s.places[i]? = some p ∧ p.uses m = true := by
      rcases hi with hi | hi <;>
        exact ⟨_, mem_places_of_placeOf hi nofun, by simp [Place.uses, hrm]⟩
    obtain ⟨p, hat, huse⟩ := hat
    obtain ⟨M₁, hM₁⟩ := manager?_of_uses h.reachable.registered hm hM hat huse
    have hlater : t₁.placeOf i = .asleep r ∨ t₁.placeOf i = .asking r → _ := fun hi₁ =>
      ih (h.move hm) hM₁ hi₁ hr (by
        rcases hi₁ with hi₁ | hi₁ <;> exact outcome?_eq_none hi₁ nofun)
    obtain ⟨-, u, -, hu, -, hplace⟩ | ⟨-, hplace | ⟨r', hr', hplace⟩⟩ := move_cases hm i
    · rcases hi with hi | hi
      · rw [hi] at hu
        obtain ⟨-, rfl⟩ := hu.of_asleep
        exact hlater (.inr hplace)
      · rw [hi] at hu
        have hlt := Nat.lt_of_lt_of_le (List.getElem?_eq_some_iff.1 hat).1 (length_places_le hm)
        rw [hu.turned_down (hrm ▸ hM) (h.refuses M hM)] at hplace
        exact .inr (outcomeOn_of_outcome? (outcome?_of_placeOf hplace hlt) moves)
    · rw [← hplace] at hi
      exact hlater hi
    · rcases hi with hi | hi
      · rw [hi] at hr'
        cases hr'
        exact hlater (.inr hplace)
      · rw [hi] at hr'
        cases hr'

end Barred

end State
end Lending
end HookPool
