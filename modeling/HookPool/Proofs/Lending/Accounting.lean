/-
# What the counters of a manager tell

Two counters stand beside the lock of a manager, and are changed while others have it.  As long as
nobody comes to grief they are nevertheless exact: every context that was counted as made, and every
slot in which one is being built, is counted as destroyed, on its way to be, at hand, or among the
active ones; and the active ones are those that callers hold, those that were let go of without
being given back, and the slots.

A reading of a manager takes its numbers one after the other, and others go on meanwhile.  It still
never tells of more contexts destroyed and at hand than were made, as the number of those made is
read first and only ever grows, and what is destroyed meanwhile had left the manager before.
-/
import HookPool.Proofs.Lending.Capacity

namespace HookPool
namespace Lending

variable {σ : Type}

/-! ## The balance of a manager -/

/-- The counters of a manager agree with its stock and with its tally, where `dropped` of its
contexts were let go of without being given back. -/
structure Balanced (dropped : Nat) (M : Manager σ) (n : Tally) : Prop where
  sound : M.poisoned = false
  contexts : M.created + n.building =
    M.destroyed + n.leaving + M.stock.contexts.length + M.stock.active
  active : M.stock.active = n.held + dropped + n.building
  /-- Only a pool counts contexts after it was made. -/
  single : M.stock.isPool = false → M.created = 1

namespace Balanced

variable {M M' : Manager σ} {n n' : Tally} {panics locked : Prop} {d dropped : Nat}

/-- A manager that is made is balanced. -/
theorem start {plan : Plan} {factory : Nat} {built : List (Context σ)}
    (hl : built.length = plan.startCount) :
    Balanced 0 (State.firstManager plan factory built) {} := by
  cases plan with
  | pool config =>
    refine ⟨rfl, ?_, rfl, nofun⟩
    show config.startCount + 0 = 0 + 0 + built.length + 0
    rw [hl]
    show config.startCount + 0 = 0 + 0 + config.startCount + 0
    omega
  | single =>
    obtain ⟨c, rfl⟩ := List.length_eq_one_iff.1 hl
    exact ⟨rfl, rfl, rfl, fun _ => rfl⟩

/-- The balance holds of another stock if its numbers fit. -/
theorem of_stock (h : Balanced dropped M n) {stock : Stock σ} {dropped' : Nat}
    (hconfig : stock.config? = M.stock.config?)
    (hsum : M.created + n'.building =
      M.destroyed + n'.leaving + stock.contexts.length + stock.active)
    (hactive : stock.active = n'.held + dropped' + n'.building) :
    Balanced dropped' (M.withStock stock) n' := by
  refine ⟨h.sound, hsum, hactive, fun hk => ?_⟩
  rw [show (M.withStock stock).stock.isPool = _ from Stock.isPool_congr hconfig] at hk
  exact h.single hk

/-- **Every move in which nobody comes to grief keeps the balance.** -/
theorem step (he : Entry panics locked d M n M' n') (hcalm : ¬panics) (hb : Bounded M n)
    (h : Balanced dropped M n) : Balanced (dropped + d) M' n' := by
  have hsum := h.contexts
  have hactive := h.active
  cases he with
  | lentCrash _ _ _ _ hp | buildCrash hp | countedCrash hp | keptCrash _ _ _ hp | drainCrash hp =>
    exact absurd hp hcalm
  | wasted hp =>
    rcases hp with hp | hp
    · exact absurd hp hcalm
    · rw [h.sound] at hp
      cases hp
  | lent hl hp hc ho ha hn =>
    obtain ⟨-, -, -, hbuild, hheld, hleave⟩ := hn
    dsimp only at hbuild hheld hleave
    have hrest := Stock.active_of_offer_lent ho hb.room
    have hlength := congrArg List.length (Stock.contexts_of_offer_lent ho)
    rw [List.length_cons] at hlength
    exact h.of_stock (Stock.config?_of_offer_lent ho) (by omega) (by omega)
  | reserved hl hp hc ho ha hn =>
    obtain ⟨-, -, -, hbuild, hheld, hleave⟩ := hn
    dsimp only at hbuild hheld hleave
    obtain ⟨hnil, -, hnil', hrest⟩ := Stock.of_offer_reserved ho
    rw [hnil] at hsum
    exact h.of_stock (Stock.config?_of_offer_reserved ho) (by rw [hnil']; omega) (by omega)
  | counted hn =>
    obtain ⟨-, -, -, hbuild, hheld, hleave⟩ := hn
    dsimp only at hbuild hheld hleave
    refine ⟨h.sound, ?_, ?_, fun hk => ?_⟩
    · simp only [Manager.countCreated]
      omega
    · simp only [Manager.countCreated]
      omega
    · have := hb.grows hk
      omega
  | gaveUp hl hn =>
    obtain ⟨-, -, -, hbuild, hheld, hleave⟩ := hn
    dsimp only at hbuild hheld hleave
    have hrest := M.stock.active_vacate
    exact h.of_stock M.stock.config?_vacate (by rw [Stock.contexts_vacate]; omega) (by omega)
  | @kept _ _ _ c hl hp hk hn =>
    obtain ⟨-, -, -, hbuild, hheld, hleave⟩ := hn
    dsimp only at hbuild hheld hleave
    have hput := hb.length_contexts_put (by omega) c
    have hrest : (M.stock.vacate.put c).active = M.stock.active - 1 := by simp
    exact h.of_stock (by simp) (by omega) (by omega)
  | turnedAway hl hp hk hn =>
    obtain ⟨-, -, -, hbuild, hheld, hleave⟩ := hn
    dsimp only at hbuild hheld hleave
    have hrest := M.stock.active_vacate
    exact h.of_stock M.stock.config?_vacate (by rw [Stock.contexts_vacate]; omega) (by omega)
  | discarded hn =>
    obtain ⟨-, -, -, hbuild, hheld, hleave⟩ := hn
    dsimp only at hbuild hheld hleave
    refine ⟨h.sound, ?_, ?_, h.single⟩
    · simp only [Manager.countDestroyed]
      omega
    · simp only [Manager.countDestroyed]
      omega
  | shut hl hp hn =>
    obtain ⟨-, -, -, hbuild, hheld, hleave⟩ := hn
    dsimp only at hbuild hheld hleave
    have hpool := Stock.isPool_congr M.stock.config?_emptied
    refine ⟨h.sound, ?_, ?_, by rw [Manager.stock_shut, hpool]; exact h.single⟩
    · simp only [Manager.shut, Stock.contexts_emptied, Stock.active_emptied, List.length_nil]
      omega
    · simp only [Manager.shut, Stock.active_emptied]
      omega
  | still hn | came hn | went _ _ _ hn | fellAsleep _ _ _ _ _ hn | awoke hn | lost hn =>
    obtain ⟨-, -, -, hbuild, hheld, hleave⟩ := hn
    dsimp only at hbuild hheld hleave
    exact ⟨h.sound, by omega, by omega, h.single⟩

end Balanced

/-- **While others do not have the lock, no more is made uncounted and nothing leaves**: the number
of contexts made does not fall, and that of those destroyed or on their way does not rise. -/
theorem Entry.counters {M M' : Manager σ} {n n' : Tally} {panics locked : Prop} {d : Nat}
    (he : Entry panics locked d M n M' n') (hl : ¬locked) :
    M.created ≤ M'.created ∧ M'.destroyed + n'.leaving ≤ M.destroyed + n.leaving := by
  cases he with
  | went h | fellAsleep h | lent h | lentCrash h | reserved h | gaveUp h | kept h | keptCrash h
  | turnedAway h | shut h => exact absurd h hl
  | counted hn =>
    have hleave := hn.leaving
    simp only [Manager.countCreated] at hleave ⊢
    omega
  | countedCrash _ hn =>
    have hleave := hn.leaving
    simp only [Manager.countCreated] at hleave ⊢
    omega
  | discarded hn =>
    have hleave := hn.leaving
    simp only [Manager.countDestroyed] at hleave ⊢
    omega
  | drainCrash _ hn =>
    have hleave := hn.leaving
    simp only [Manager.countDestroyed] at hleave ⊢
    omega
  | still hn | came hn | awoke hn | buildCrash _ hn | lost hn | wasted _ hn =>
    have hleave := hn.leaving
    dsimp only at hleave
    omega

namespace State

variable {invoke : Invoke σ} {s t u : State σ} {mv : Move σ} {moves : List (Move σ)}
  {m : ManagerId} {M : Manager σ} {dropped : Nat}

/-! ## Calm runs -/

/-- How many contexts of the manager are let go of on a run without being given back. -/
def droppedOn (invoke : Invoke σ) (m : ManagerId) (s : State σ) : List (Move σ) → Nat
  | [] => 0
  | mv :: moves =>
    match s.move invoke mv with
    | some t => s.drops m mv + t.droppedOn invoke m moves
    | none => 0

/-- A manager is balanced, and was not let go of before it was made. -/
structure Booked (dropped : Nat) (s : State σ) (m : ManagerId) : Prop where
  balanced : ∀ M signalled, s.manager? m = some M → Balanced dropped M (s.tally signalled m)
  fresh : s.Fresh m → dropped = 0

theorem Booked.move (hs : Reachable invoke s) (hm : s.move invoke mv = some t) (hc : t.Calm)
    (h : Booked dropped s m) : Booked (dropped + s.drops m mv) t m := by
  have hr := hs.registered
  have hfresh : s.Fresh m → dropped + s.drops m mv = 0 := by
    intro hf
    have := drops_le s m mv
    rw [hr.claims_eq_zero hf] at this
    have := h.fresh hf
    omega
  refine ⟨fun M' signalled hM' => ?_, fun hf => hfresh (hf.of_move hm)⟩
  cases hM : s.manager? m with
  | none =>
    obtain ⟨hf, he, plan, factory, built, rfl, hl, -⟩ :=
      ledger_start hr hm hM hM' signalled
    rw [he, hfresh hf]
    exact Balanced.start hl
  | some M =>
    have he := ledger_step hr hm hM hM' fun _ => false
    have h' := (h.balanced M _ hM).step he (fun hn => hn hc) (hs.bounded hM _)
    exact ⟨h'.sound, h'.contexts, h'.active, h'.single⟩

theorem booked_initial (factories : List (Factory σ)) (m : ManagerId) :
    Booked 0 (initial factories) m where
  balanced M _ h := by
    obtain ⟨_ | n⟩ := m <;> simp [State.manager?, initial] at h
  fresh _ := rfl

/-- **A calm run keeps a manager balanced.** -/
theorem CalmRun.booked (h : CalmRun invoke s moves t) (hs : Reachable invoke s)
    (hb : Booked dropped s m) : Booked (dropped + s.droppedOn invoke m moves) t m := by
  induction h generalizing dropped with
  | nil hc => exact hb
  | @cons s t u mv moves hc hm hr ih =>
    have := ih (hs.move hm) (hb.move hs hm hr.calm_start)
    simpa [droppedOn, hm, Nat.add_assoc] using this

/-! ## Readings -/

/-- Others move, and none of them comes to grief, while a caller has the lock of the manager. -/
inductive Meanwhile (invoke : Invoke σ) (m : ManagerId) (s : State σ) : State σ → Prop where
  | nothing : Meanwhile invoke m s s
  | move {t u : State σ} {mv : Move σ} (h : Meanwhile invoke m s t)
    (hm : t.move invoke mv = some u) (hl : t.locks m mv = false) (hc : u.Calm) :
    Meanwhile invoke m s u

/-- A caller that has the lock of the manager from this state on may read these numbers: at once
those of contexts lent and at hand, then that of contexts made, and last that of contexts
destroyed. -/
def Reads (invoke : Invoke σ) (s : State σ) (m : ManagerId) (stats : Stats) : Prop :=
  ∃ M s₁ M₁ s₂ M₂, s.manager? m = some M ∧
    Meanwhile invoke m s s₁ ∧ s₁.manager? m = some M₁ ∧
    Meanwhile invoke m s₁ s₂ ∧ s₂.manager? m = some M₂ ∧
    stats = { M.stats with created := M₁.created, destroyed := M₂.destroyed }

/-- A manager goes only in a move that needs the whole of it. -/
theorem manager?_of_not_locks (hr : s.Registered) (hm : s.move invoke mv = some t)
    (hl : s.locks m mv = false) (hM : s.manager? m = some M) : ∃ M', t.manager? m = some M' := by
  obtain ⟨i, u, hi, hu, hf⟩ | hidle := move_turn hm
  · rw [hr.manager? hu hf, hM]
    cases hs : u.shift with
    | keep => exact ⟨M, rfl⟩
    | number => exact ⟨M, rfl⟩
    | replace k manager =>
      by_cases hk : m = k
      · subst hk
        cases manager with
        | some M' => exact ⟨M', by simp [Shift.lookUp]⟩
        | none =>
          obtain ⟨caller, rfl⟩ := hu.dropped hs
          simp [locks] at hl
      · exact ⟨M, by simp [Shift.lookUp, hk]⟩
  · exact ⟨M, by rw [manager?_of_managers_eq hidle.managers, hM]⟩

/-- **What the counters can come to while others do not have the lock.** -/
theorem Meanwhile.counters (h : Meanwhile invoke m s t) (hs : Reachable invoke s)
    (hM : s.manager? m = some M) :
    Reachable invoke t ∧ ∃ M', t.manager? m = some M' ∧ M.created ≤ M'.created ∧
      M'.destroyed + total (Place.removes m) t.places ≤
        M.destroyed + total (Place.removes m) s.places := by
  induction h with
  | nothing => exact ⟨hs, M, hM, Nat.le_refl _, Nat.le_refl _⟩
  | move h hm hl hc ih =>
    obtain ⟨ht, M₁, hM₁, hmade, hgone⟩ := ih
    obtain ⟨M₂, hM₂⟩ := manager?_of_not_locks ht.registered hm hl hM₁
    have he := ledger_step ht.registered hm hM₁ hM₂ fun _ => false
    obtain ⟨hmade', hgone'⟩ := he.counters (by simp [hl])
    exact ⟨ht.move hm, M₂, hM₂, Nat.le_trans hmade hmade', Nat.le_trans hgone' hgone⟩

/-! ## The accounts of a manager -/

/-- Nobody is in the middle of something that has to do with the manager: whoever still needs it
sleeps, or holds a context of it. -/
def AtRest (s : State σ) (m : ManagerId) : Prop :=
  ∀ p ∈ s.places, p.uses m = true → p.isReady = false

theorem AtRest.nothing_open (h : s.AtRest m) :
    total (Place.builds m) s.places = 0 ∧ total (Place.removes m) s.places = 0 := by
  refine ⟨total_eq_zero fun p hp => ?_, total_eq_zero fun p hp => ?_⟩
  · have := h p hp
    cases p <;> simp_all [Place.uses, Place.isReady]
  · have := h p hp
    cases p <;> simp_all [Place.uses, Place.isReady]

/-- What the counters of a manager tell where `dropped` of its contexts were let go of without being
given back. -/
structure Accounts (invoke : Invoke σ) (s : State σ) (m : ManagerId) (M : Manager σ)
    (dropped : Nat) : Prop where
  contexts : M.created + total (Place.builds m) s.places =
    M.destroyed + total (Place.removes m) s.places + M.stock.contexts.length + M.stock.active
  active : M.stock.active =
    total (Place.holds m) s.places + dropped + total (Place.builds m) s.places
  reads : ∀ stats, Reads invoke s m stats → stats.destroyed + stats.idle ≤ stats.created
  atRest : s.AtRest m → M.destroyed ≤ M.created ∧
    M.created - M.destroyed = M.stock.contexts.length + M.stock.active
  single : s.AtRest m → M.stock.isPool = false →
    M.stock.contexts.length + M.stock.active + M.destroyed = 1

/-- **The counters are exact on every calm run**, in whatever order callers take their steps and
whichever contexts cannot be built. -/
theorem CalmRun.accounts {factories : List (Factory σ)}
    (h : CalmRun invoke (initial factories) moves s) (hM : s.manager? m = some M) :
    Accounts invoke s m M ((initial factories).droppedOn invoke m moves) := by
  have hs : Reachable invoke s := ⟨factories, moves, h.run⟩
  have hb := (h.booked (reachable_initial invoke factories)
    (booked_initial factories m)).balanced M (fun _ => false) hM
  rw [Nat.zero_add] at hb
  have hsum : M.created + total (Place.builds m) s.places =
    M.destroyed + total (Place.removes m) s.places + M.stock.contexts.length + M.stock.active :=
    hb.contexts
  have hactive := hb.active
  refine ⟨hsum, hactive, ?_, fun hrest => ?_, fun hrest hk => ?_⟩
  · rintro stats ⟨M₀, s₁, M₁, s₂, M₂, hM₀, h₁, hM₁, h₂, hM₂, rfl⟩
    obtain rfl := Option.some.inj (hM.symm.trans hM₀)
    obtain ⟨hs₁, M', hM', hmade, hgone⟩ := h₁.counters hs hM
    obtain rfl := Option.some.inj (hM₁.symm.trans hM')
    obtain ⟨-, M'', hM'', -, hgone'⟩ := h₂.counters hs₁ hM₁
    obtain rfl := Option.some.inj (hM₂.symm.trans hM'')
    have hbuild : total (Place.builds m) s.places ≤ M.stock.active := by
      rw [hactive]
      exact Nat.le_add_left _ _
    show M₂.destroyed + M.stock.contexts.length ≤ M₁.created
    omega
  · obtain ⟨hbuild, hleave⟩ := hrest.nothing_open
    omega
  · obtain ⟨hbuild, hleave⟩ := hrest.nothing_open
    have := hb.single hk
    omega

/-- The hypotheses are satisfiable: of a pool for two, one context was lent and let go of, and
another one is being built. -/
theorem accounts_dropped_and_building : ∃ (moves : List (Move Unit)) (s : State Unit)
    (M : Manager Unit), CalmRun inert (initial [plain]) moves s ∧ s.manager? ⟨1⟩ = some M ∧
      M.stock.active = 2 ∧ Accounts inert s ⟨1⟩ M 1 := by
  have h : CalmRun inert (initial [plain])
      [.begin 0 (.establish 0 (.pool ⟨1, 2, 1⟩)), .run 0 0, .run 0 0,
        .begin 1 (.acquire ⟨1⟩ .hold none), .run 1 0, .handle 1 .leave,
        .begin 1 (.acquire ⟨1⟩ .hold none), .run 1 0] _ :=
    .cons (by decide) rfl (.cons (by decide) rfl (.cons (by decide) rfl (.cons (by decide) rfl
      (.cons (by decide) rfl (.cons (by decide) rfl (.cons (by decide) rfl (.cons (by decide) rfl
        (.nil (by decide)))))))))
  exact ⟨_, _, _, h, rfl, rfl, h.accounts rfl⟩

end State
end Lending
end HookPool
