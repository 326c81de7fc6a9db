/-
# A poisoned manager is frozen, and still answers

Once a caller has come to grief with the lock of a manager, the manager turns everybody away who
comes to have the lock: openers and shutdowns are told that the lock has failed, a context that it
has lent is not taken back but ends, one that it has not lent is refused as ever.

Its counters are not behind the lock.  They stand as the grief has left them, but for the callers
that were past the lock by then: a context that was being built is counted or its slot is free
again, and a context that was on its way out is counted as destroyed.  `Drift` is how far that can
go, in terms of how many callers build and remove contexts of the manager.

Main statement: `Reachable.frozen`, of a manager of either kind, poisoned in whatever state, and any
later point of any run.
-/
import HookPool.Proofs.Lending.Capacity
import HookPool.Proofs.Lending.Quiet
import HookPool.Proofs.Lending.Refusal

namespace HookPool
namespace Lending

variable {σ : Type}

/-! ## The counters -/

/-- How far the counters of a poisoned manager may move: each context that is no longer being built
is counted once as created or frees one slot, each one that is no longer leaving is counted once as
destroyed, and nothing else happens. -/
structure Drift (M : Manager σ) (n : Tally) (M' : Manager σ) (n' : Tally) : Prop where
  idle : M'.stock.contexts = M.stock.contexts
  config : M'.stock.config? = M.stock.config?
  closed : M'.closed = M.closed
  poisoned : M'.poisoned = M.poisoned
  created : M.created ≤ M'.created
  destroyed : M.destroyed ≤ M'.destroyed
  active : M'.stock.active ≤ M.stock.active
  builds : (M'.created - M.created) + (M.stock.active - M'.stock.active) + n'.building ≤ n.building
  removes : (M'.destroyed - M.destroyed) + n'.leaving ≤ n.leaving

namespace Drift

variable {M M' M'' : Manager σ} {n n' n'' : Tally}

theorem refl (M : Manager σ) (n : Tally) : Drift M n M n := by
  constructor <;> simp

theorem trans (h : Drift M n M' n') (h' : Drift M' n' M'' n'') : Drift M n M'' n'' := by
  obtain ⟨hidle, hconfig, hclosed, hpoisoned, hc, hd, ha, hb, hr⟩ := h
  obtain ⟨hidle', hconfig', hclosed', hpoisoned', hc', hd', ha', hb', hr'⟩ := h'
  refine ⟨hidle'.trans hidle, hconfig'.trans hconfig, hclosed'.trans hclosed,
    hpoisoned'.trans hpoisoned, ?_, ?_, ?_, ?_, ?_⟩ <;> omega

/-- **Where nobody was past the lock, the counters do not move.** -/
theorem stats_eq (h : Drift M n M' n') (hb : n.building = 0) (hr : n.leaving = 0) :
    M'.stats = M.stats := by
  obtain ⟨hidle, hconfig, -, -, hc, hd, ha, hbuilds, hremoves⟩ := h
  have hcreated : M'.created = M.created := by omega
  have hdestroyed : M'.destroyed = M.destroyed := by omega
  have hactive : M'.stock.active = M.stock.active := by omega
  rw [Manager.stats, Manager.stats, hidle, hcreated, hdestroyed, hactive,
    Stock.maxActive_congr hconfig, Stock.maxIdle_congr hconfig]

end Drift

/-- **Nothing that happens moves a poisoned manager further than that.** -/
theorem Entry.drift {M M' : Manager σ} {n n' : Tally} {panics locked : Prop} {d : Nat}
    (he : Entry panics locked d M n M' n') (hp : M.poisoned = true) : Drift M n M' n' := by
  have hsound : M.poisoned ≠ false := by rw [hp]; decide
  -- whatever leaves the manager alone moves only the tally
  have hstill : ∀ {w : Nat} {out into : Tally}, n.Flow w out into n' →
      into.building ≤ out.building → into.leaving ≤ out.leaving → Drift M n M n' := by
    rintro w out into ⟨-, -, -, hbuild, -, hleave⟩ hle hle'
    exact { Drift.refl M n with builds := by omega, removes := by omega }
  cases he with
  | lent _ hs => exact absurd hs hsound
  | lentCrash _ hs => exact absurd hs hsound
  | reserved _ hs => exact absurd hs hsound
  | fellAsleep _ hs => exact absurd hs hsound
  | kept _ hs => exact absurd hs hsound
  | keptCrash _ hs => exact absurd hs hsound
  | turnedAway _ hs => exact absurd hs hsound
  | shut _ hs => exact absurd hs hsound
  | still h => exact hstill h (Nat.le_refl _) (Nat.le_refl _)
  | came h => exact hstill h (Nat.le_refl _) (Nat.le_refl _)
  | went _ _ _ h => exact hstill h (Nat.le_refl _) (Nat.le_refl _)
  | awoke h => exact hstill h (Nat.le_refl _) (Nat.le_refl _)
  | lost h => exact hstill h (Nat.le_refl _) (Nat.le_refl _)
  | wasted _ h => exact hstill h (Nat.le_refl _) (Nat.le_refl _)
  | buildCrash _ h => exact hstill h (Nat.zero_le _) (Nat.le_refl _)
  | counted h =>
    obtain ⟨-, -, -, hbuild, -, hleave⟩ := h
    dsimp only at hbuild hleave
    constructor <;> simp only [Manager.countCreated] <;> omega
  | countedCrash _ h =>
    obtain ⟨-, -, -, hbuild, -, hleave⟩ := h
    dsimp only at hbuild hleave
    constructor <;> simp only [Manager.countCreated] <;> omega
  | gaveUp _ h =>
    obtain ⟨-, -, -, hbuild, -, hleave⟩ := h
    dsimp only at hbuild hleave
    constructor <;> simp only [Manager.withStock, Stock.contexts_vacate, Stock.config?_vacate,
      Stock.active_vacate] <;> omega
  | discarded h =>
    obtain ⟨-, -, -, hbuild, -, hleave⟩ := h
    dsimp only at hbuild hleave
    constructor <;> simp only [Manager.countDestroyed] <;> omega
  | drainCrash _ h =>
    obtain ⟨-, -, -, hbuild, -, hleave⟩ := h
    dsimp only at hbuild hleave
    constructor <;> simp only [Manager.countDestroyed] <;> omega

namespace State

variable {invoke : Invoke σ} {s t : State σ} {mv : Move σ} {moves : List (Move σ)} {i : Nat}
  {p : Place σ} {u : Upshot σ} {o : Outcome} {m : ManagerId} {M M' : Manager σ}

/-- **A run moves the counters of a poisoned manager no further.** -/
theorem Barred.drift (h : Barred invoke s m .lockFailed) (hM : s.manager? m = some M)
    (hp : M.poisoned = true) (hr : s.run invoke moves = some t) (hM' : t.manager? m = some M')
    (before after : Nat → Bool) : Drift M (s.tally before m) M' (t.tally after m) := by
  induction moves generalizing s M before with
  | nil =>
    obtain rfl := Option.some.inj hr
    obtain rfl := Option.some.inj (hM.symm.trans hM')
    exact { Drift.refl M (s.tally before m) with
      builds := by simp [tally], removes := by simp [tally] }
  | cons mv moves ih =>
    obtain ⟨t₁, hm, hr⟩ := run_cons hr
    have h₁ := h.move hm
    cases hM₁ : t₁.manager? m with
    | none =>
      have hgone := gone_of_run h₁.reachable h₁.made hM₁ hr
      rw [hM'] at hgone
      cases hgone
    | some M₁ =>
      have hd := (ledger_step h.reachable.registered hm hM hM₁ before).drift hp
      exact hd.trans (ih h₁ hM₁ (hd.poisoned.trans hp) hr _)

/-! ## What callers are told -/

/-- The manager is poisoned as long as it is there. -/
theorem Barred.poisoned (h : Barred invoke s m .lockFailed) (hM : s.manager? m = some M) :
    M.poisoned = true := by
  have he := h.refuses M hM
  rw [Manager.refusal?] at he
  split at he
  · assumption
  · split at he <;> cases he

/-- **Nobody begins to remove contexts of a poisoned manager.** -/
theorem Turn.removes (h : Turn invoke s i mv p u)
    (hp : ∀ M, s.manager? m = some M → M.poisoned = true) (hr : 0 < u.place.removes m) :
    0 < p.removes m := by
  have hsound : ∀ {k : ManagerId} {M : Manager σ} {a b : Nat}, s.manager? k = some M →
      M.poisoned = false → 0 < (if k = m then a else b) → b = 0 → False := by
    intro k M a b hM hs hlt hb
    split at hlt
    · rename_i hk
      rw [hp M (hk ▸ hM)] at hs
      cases hs
    · omega
  have hserved (r : Request) (c : Context σ) : (r.served c).removes m = 0 :=
    r.served_induction c (fun _ => rfl) (fun _ _ => rfl)
  cases h with
  | opening h =>
    cases h with
    | lent => rw [hserved] at hr; cases hr
    | counted => rw [hserved] at hr; cases hr
    | _ => cases hr
  | givingBack h =>
    cases h with
    | turnedAway hM _ hs => exact (hsound hM hs hr rfl).elim
    | _ => cases hr
  | stopping h =>
    cases h with
    | stopped hM hs => exact (hsound hM hs hr rfl).elim
    | drained hM =>
      simp only [Place.removes] at hr ⊢
      split at hr
      · rw [if_pos ‹_›]
        exact Nat.succ_pos _
      · cases hr
    | _ => cases hr
  | making h => cases h <;> cases hr
  | beginning h => cases h <;> cases hr
  | dealing h => cases h <;> cases hr
  | works => cases hr
  | rousing => cases hr

/-- **Whoever removes contexts was past the lock before.** -/
theorem Barred.removes (h : Barred invoke s m .lockFailed) (hr : s.run invoke moves = some t)
    (hpos : 0 < (t.placeOf i).removes m) : 0 < (s.placeOf i).removes m := by
  induction moves generalizing s with
  | nil =>
    obtain rfl := Option.some.inj hr
    exact hpos
  | cons mv moves ih =>
    obtain ⟨t₁, hm, hr⟩ := run_cons hr
    have hlater := ih (h.move hm) hr
    obtain ⟨-, u, -, hu, -, hplace⟩ | ⟨-, hplace | ⟨r, -, hplace⟩⟩ := move_cases hm i
    · rw [hplace] at hlater
      exact hu.removes (fun M hM => h.poisoned hM) hlater
    · rwa [hplace] at hlater
    · rw [hplace] at hlater
      cases hlater

/-- **Who gives a context back to a poisoned manager that has lent it comes to an end with it.** -/
theorem Turn.barred {aim : Aim} {c : Context σ} (h : Turn invoke s i mv (.returning m aim c) u)
    (ho : c.owner = some m) (hp : ∀ M, s.manager? m = some M → M.poisoned = true) :
    u.shift = .keep ∧ u.gone = [c] ∧ ∃ o, u.place = .finished o ∧
      (o = aim.verdict (.error .lockFailed) ∨ o = .panicked sinkPayload) := by
  have hsound : ∀ {M : Manager σ}, s.manager? m = some M → M.poisoned ≠ false := by
    intro M hM hs
    rw [hp M hM] at hs
    cases hs
  obtain ⟨_, -, h⟩ := h.of_returning
  cases h with
  | refused _ hne => exact absurd ho hne
  | refusedEnd _ hne => exact absurd ho hne
  | barred _ _ _ hend => exact ⟨rfl, rfl, _, rfl, hend.symm⟩
  | kept hM _ hs => exact absurd hs (hsound hM)
  | keptCrash hM _ hs => exact absurd hs (hsound hM)
  | turnedAway hM _ hs => exact absurd hs (hsound hM)

/-- What comes of giving a context back to a poisoned manager that has lent it. -/
theorem Barred.returning {aim : Aim} {c : Context σ} (h : Barred invoke s m .lockFailed)
    (hM : s.manager? m = some M) (hi : s.placeOf i = .returning m aim c)
    (ho : c.owner = some m) :
    Ends invoke s i (fun o => o = aim.verdict (.error .lockFailed) ∨ o = .panicked sinkPayload) 1 ∧
      ∀ chosen, ∃ u, s.move invoke (.run i chosen) = some u ∧ u.managers = s.managers ∧
        c.id ∈ u.ended ∧
        (s.armed = none → u.placeOf i = .finished (aim.verdict (.error .lockFailed))) := by
  have hat := mem_places_of_placeOf hi nofun
  have hlt := (List.getElem?_eq_some_iff.1 hat).1
  constructor
  · refine Ends.of_place (m := m) (I := fun s => Barred invoke s m .lockFailed)
      (fun _ h => h.reachable) (fun _ _ _ h hm => h.move hm) rfl (by simp [Place.uses]) ?_ h hM hi
    intro s mv u h hu
    exact (hu.barred ho fun M hM => h.poisoned hM).2.2
  · intro chosen
    obtain ⟨t, ht⟩ : ∃ t, s.move invoke (.run i chosen) = some t :=
      possible_of_ready hM hat rfl (by simp [Place.uses]) chosen
    obtain ⟨-, u, -, hu, hf, hplace⟩ | ⟨hturn, -⟩ := move_cases ht i
    · rw [hi] at hu
      obtain ⟨hshift, hgone, -⟩ := hu.barred ho fun M hM => h.poisoned hM
      refine ⟨t, ht, by rw [hf.managers, hshift]; rfl, by rw [hf.ended, hgone]; simp, fun ha => ?_⟩
      obtain ⟨s₁, hs₁, a⟩ := giveBack_poisoned ha i aim ho (h.poisoned hM) chosen
      simp only [State.move, step?, hat, withManager, hM, Option.map_some, hs₁] at ht
      obtain rfl := Option.some.inj ht
      exact placeOf_put (by rw [a.places]; exact Nat.le_of_lt hlt) _
    · simp [Move.isTurnOf] at hturn

/-- What comes of a shutdown of a poisoned manager. -/
theorem Barred.stopping (h : Barred invoke s m .lockFailed) (hM : s.manager? m = some M)
    (hi : s.placeOf i = .stopping m) :
    (∀ chosen, s.move invoke (.run i chosen) = some (s.finish i (.failed .lockFailed))) ∧
      Ends invoke s i (· = .failed .lockFailed) 1 := by
  constructor
  · intro chosen
    have hat := mem_places_of_placeOf hi nofun
    simp only [State.move, step?, hat, withManager, hM, Option.map_some, stop]
    rw [if_pos (h.poisoned hM)]
  · refine Ends.of_place (m := m) (I := fun s => Barred invoke s m .lockFailed)
      (fun _ h => h.reachable) (fun _ _ _ h hm => h.move hm) rfl (by simp [Place.uses]) ?_ h hM hi
    intro s mv u h hu
    obtain ⟨_, -, hu⟩ := hu.of_stopping
    cases hu with
    | barred => exact ⟨_, rfl, rfl⟩
    | stopped hM hs =>
      rw [h.poisoned hM] at hs
      cases hs

/-- What comes of closing a context on a manager, poisoned or not, that has not lent it. -/
theorem foreign_close {c : Context σ} (hM : s.manager? m = some M)
    (hi : s.placeOf i = .returning m .close c) (ho : c.owner ≠ some m)
    (hq : (s.report (.notLentHere c.id m)).2 = false) (chosen : Nat) :
    s.move invoke (.run i chosen) =
      some ((s.record (.notLentHere c.id m)).put i (.refused c)) := by
  have hat := mem_places_of_placeOf hi nofun
  simp only [State.move, step?, hat, withManager, hM, Option.map_some]
  rw [giveBack_foreign ho hq]

/-! ## The theorem -/

/-- What holds of a manager, poisoned as `M` in `s`, at a later point `t`, where it is `M'`. -/
structure Frozen (invoke : Invoke σ) (m : ManagerId) (s : State σ) (M : Manager σ) (t : State σ)
    (M' : Manager σ) : Prop where
  poisoned : M'.poisoned = true
  /-- The counters stand still but for those who were past the lock; if nobody was, entirely. -/
  drift : Drift M (s.tally (fun _ => false) m) M' (t.tally (fun _ => false) m)
  stats : total (Place.builds m) s.places = 0 → total (Place.removes m) s.places = 0 →
    M'.stats = M.stats
  /-- Whoever builds or removes a context was past the lock when the manager was poisoned. -/
  slots : ∀ i, 0 < (t.placeOf i).builds m →
    0 < (s.placeOf i).builds m ∧ (t.placeOf i).request? = (s.placeOf i).request?
  removals : ∀ i, 0 < (t.placeOf i).removes m → 0 < (s.placeOf i).removes m
  /-- A context is lent only to a caller that has built it. -/
  reached : ∀ i mv u, t.move invoke mv = some u → (t.placeOf i).holds m < (u.placeOf i).holds m →
    ∃ r c, t.placeOf i = .grown r c ∧ r.manager = m
  /-- Openers and shutdowns come as ever. -/
  begins : ∀ i, t.isFree i = true →
    (∀ purpose timeout, t.move invoke (.begin i (.acquire m purpose timeout)) =
      some (t.put i (.asking ⟨m, purpose, t.deadline? timeout⟩))) ∧
    t.move invoke (.begin i (.shutDown m)) = some (t.put i (.stopping m))
  /-- The next turn of an opener ends it, whatever it wants and however long it would wait, and so
  does the next turn of a shutdown. -/
  opening : ∀ i r, t.placeOf i = .asking r → r.manager = m →
    (∀ chosen, t.move invoke (.run i chosen) = some (t.finish i (.failed .lockFailed))) ∧
      Ends invoke t i (· = .failed .lockFailed) 1
  stopping : ∀ i, t.placeOf i = .stopping m →
    (∀ chosen, t.move invoke (.run i chosen) = some (t.finish i (.failed .lockFailed))) ∧
      Ends invoke t i (· = .failed .lockFailed) 1
  /-- A context that the manager has lent ends with its return, which changes no manager; a lease
  that ends does so in peace, unless the sink panics again. -/
  returning : ∀ i aim c, t.placeOf i = .returning m aim c → c.owner = some m →
    Ends invoke t i (fun o => o = aim.verdict (.error .lockFailed) ∨ o = .panicked sinkPayload) 1 ∧
      ∀ chosen, ∃ u, t.move invoke (.run i chosen) = some u ∧ u.managers = t.managers ∧
        c.id ∈ u.ended ∧
        (t.armed = none → u.placeOf i = .finished (aim.verdict (.error .lockFailed)))
  /-- Any other context stays with its holder. -/
  foreign : ∀ i c, t.placeOf i = .returning m .close c → c.owner ≠ some m →
    (t.report (.notLentHere c.id m)).2 = false → ∀ chosen, t.move invoke (.run i chosen) =
      some ((t.record (.notLentHere c.id m)).put i (.refused c))
  /-- Whoever sleeps has slept all the time; it sleeps on or asks again until it is told the same. -/
  asleep : ∀ i r, t.placeOf i = .asleep r → r.manager = m → s.placeOf i = .asleep r ∧
    ∀ moves u, t.run invoke moves = some u →
      (t.outcomeOn invoke i moves = none ∧
          (u.placeOf i = .asleep r ∨ u.placeOf i = .asking r)) ∨
        t.outcomeOn invoke i moves = some (.failed .lockFailed)

/-- **A poisoned manager is frozen, and still answers.**  Take any state that a run leads to in which
a manager is poisoned, whoever came to grief and in the midst of what, and any run from there, be it
calm or not. -/
theorem Reachable.frozen (hs : Reachable invoke s) (hM : s.manager? m = some M)
    (hp : M.poisoned = true) (hr : s.run invoke moves = some t) (hM' : t.manager? m = some M') :
    Frozen invoke m s M t M' := by
  have h := Barred.of_manager hs hM (Manager.refusal?_of_poisoned hp)
  have ht := h.run hr
  have hdrift := h.drift hM hp hr hM' (fun _ => false) fun _ => false
  refine {
    poisoned := ht.poisoned hM'
    drift := hdrift
    stats := hdrift.stats_eq
    slots := fun i => h.builds hr
    removals := fun i => h.removes hr
    reached := fun i mv u hm => ht.holds hm
    begins := fun i hfree => ⟨fun purpose timeout => ?_, ?_⟩
    opening := fun i r hi hrm => ht.asking hM' hi hrm
    stopping := fun i hi => ht.stopping hM' hi
    returning := fun i aim c hi ho => ht.returning hM' hi ho
    foreign := fun i c hi ho hq chosen => foreign_close hM' hi ho hq chosen
    asleep := fun i r hi hrm => ⟨h.asleep hr hi hrm, fun moves u hu =>
      ht.waiting hM' (.inl hi) hrm hu⟩ }
  · simp only [State.move, begin?, hfree, if_true, withManager, hM', Option.map_some]
  · simp only [State.move, begin?, hfree, if_true, withManager, hM', Option.map_some]

/-- The hypotheses are satisfiable: of a pool for two, one context is lent, one is being built, and
one opener sleeps when the sink panics at a return.  Later the builder has its context and gives it
back, another holder gives back a context of nobody, and an opener and a shutdown have come. -/
theorem frozen_while_building :
    let after : List (Move Unit) :=
      [.run 2 0, .run 2 0, .handle 2 (.close ⟨1⟩), .begin 1 (.create 0), .run 1 0,
        .handle 1 (.close ⟨1⟩), .begin 4 (.acquire ⟨1⟩ (.call "open" []) none),
        .begin 5 (.shutDown ⟨1⟩)]
    ∃ (s t : State Unit) (M M' : Manager Unit) (c d : Context Unit),
      Reachable inert s ∧ s.manager? ⟨1⟩ = some M ∧ M.poisoned = true ∧
      s.run inert after = some t ∧ t.manager? ⟨1⟩ = some M' ∧
      M.stats = ⟨1, 0, 1, 0, 2, 1⟩ ∧ M'.stats = ⟨1, 0, 2, 0, 2, 1⟩ ∧
      t.placeOf 2 = .returning ⟨1⟩ .close c ∧ c.owner = some ⟨1⟩ ∧
      t.placeOf 1 = .returning ⟨1⟩ .close d ∧ d.owner = none ∧
      t.placeOf 3 = .asleep ⟨⟨1⟩, .lease, none⟩ ∧
      t.placeOf 4 = .asking ⟨⟨1⟩, .call "open" [], none⟩ ∧ t.placeOf 5 = .stopping ⟨1⟩ ∧
      Frozen inert ⟨1⟩ s M t M' := by
  intro after
  have hs : Reachable inert _ := ⟨[plain],
    [.begin 0 (.establish 0 (.pool ⟨1, 2, 1⟩)), .run 0 0, .run 0 0,
      .begin 1 (.acquire ⟨1⟩ .hold none), .run 1 0, .begin 2 (.acquire ⟨1⟩ .hold none), .run 2 0,
      .begin 3 (.acquire ⟨1⟩ .lease none), .run 3 0, .arm "", .handle 1 (.close ⟨1⟩), .run 1 0],
    rfl⟩
  exact ⟨_, _, _, _, _, _, hs, rfl, rfl, rfl, rfl, rfl, rfl, rfl, rfl, rfl, rfl, rfl, rfl, rfl,
    hs.frozen rfl rfl (show State.run inert _ after = _ from rfl) rfl⟩

end State
end Lending
end HookPool
