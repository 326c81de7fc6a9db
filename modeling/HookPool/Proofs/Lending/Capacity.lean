/-
# How many contexts a manager has

A manager never has more contexts, lent and at hand together, than it may lend.  An opener that is
served from what is at hand is let through without a look at how many are lent; that this is within
bounds rests on the sum, which every other step has to keep.

`Bounded` is the invariant.  It holds of a manager of either kind and of its tally wherever a run
leads (`Reachable.bounded`), whoever comes to grief on the way.
-/
import HookPool.Proofs.Lending.Ledger

namespace HookPool
namespace Lending

variable {σ : Type}

/-- How many contexts of a manager there are. -/
structure Bounded (M : Manager σ) (n : Tally) : Prop where
  room : M.stock.active + M.stock.contexts.length ≤ M.stock.maxActive
  lent : n.held + n.building ≤ M.stock.active
  /-- Only a pool builds contexts to lend. -/
  grows : M.stock.isPool = false → n.building = 0
  /-- The context of a manager of one is at hand or lent. -/
  single : M.stock.isPool = false → M.closed = false → M.poisoned = false →
    M.stock.active + M.stock.contexts.length = 1
  bare : M.closed = true → M.stock.contexts = []
  sized : ∀ config, M.stock.config? = some config →
    config.Valid ∧ M.stock.contexts.length ≤ max config.startCount config.maxIdle

namespace Bounded

variable {M M' : Manager σ} {n n' : Tally} {panics locked : Prop} {d : Nat}

/-! ## What changes the stock -/

/-- The bounds hold of a manager that is made. -/
theorem start {plan : Plan} {factory : Nat} {built : List (Context σ)}
    (hl : built.length = plan.startCount)
    (hv : ∀ config, plan = .pool config → config.Valid) :
    Bounded (State.firstManager plan factory built) {} := by
  cases plan with
  | pool config =>
    obtain ⟨hpos, hstart⟩ := hv config rfl
    have hlen : built.length = config.startCount := hl
    refine ⟨?_, Nat.le_refl 0, nofun, nofun, nofun, ?_⟩
    · show 0 + built.length ≤ config.maxActive
      omega
    · rintro config' h
      obtain rfl := Option.some.inj h
      refine ⟨⟨hpos, hstart⟩, ?_⟩
      show built.length ≤ _
      omega
  | single =>
    obtain ⟨c, rfl⟩ := List.length_eq_one_iff.1 hl
    exact ⟨Nat.le_refl 1, Nat.le_refl 0, fun _ => rfl, fun _ _ _ => rfl, nofun, nofun⟩

/-- The bounds hold while the stock stays as it is. -/
theorem of_stock (h : Bounded M n) (hs : M'.stock = M.stock) (hc : M'.closed = M.closed)
    (hp : M'.poisoned = M.poisoned) (hheld : n'.held + n'.building ≤ n.held + n.building)
    (hbuild : n'.building ≤ n.building) : Bounded M' n' := by
  obtain ⟨hroom, hlent, hgrows, hsingle, hbare, hsized⟩ := h
  refine ⟨by rwa [hs], by rw [hs]; omega, ?_, by rwa [hs, hc, hp], by rwa [hs, hc], by rwa [hs]⟩
  rw [hs]
  intro hk
  have := hgrows hk
  omega

/-- **Lending a context that is at hand keeps the bounds**, without a look at how many are lent. -/
theorem of_lent (h : Bounded M n) {c : Context σ} {rest : Stock σ}
    (ho : M.stock.offer = .lent c rest) (hc : M.closed = false) (hs : M'.stock = rest)
    (hc' : M'.closed = false) (hp : M'.poisoned = false → M.poisoned = false)
    (hheld : n'.held + n'.building ≤ n.held + n.building + 1)
    (hbuild : n'.building ≤ n.building) : Bounded M' n' := by
  obtain ⟨hroom, hlent, hgrows, hsingle, -, hsized⟩ := h
  have hactive := Stock.active_of_offer_lent ho hroom
  have hconfig := Stock.config?_of_offer_lent ho
  have hlength := congrArg List.length (Stock.contexts_of_offer_lent ho)
  rw [List.length_cons] at hlength
  have hmax := Stock.maxActive_congr hconfig
  have hpool := Stock.isPool_congr hconfig
  refine ⟨by rw [hs]; omega, by rw [hs]; omega, ?_, ?_, by simp [hc'], ?_⟩
  · rw [hs, hpool]
    intro hk
    have := hgrows hk
    omega
  · rw [hs, hpool]
    intro hk _ hp'
    have := hsingle hk hc (hp hp')
    omega
  · rw [hs, hconfig]
    intro config hcfg
    have := hsized config hcfg
    exact ⟨this.1, by omega⟩

/-- **Reserving a slot keeps the bounds.** -/
theorem of_reserved (h : Bounded M n) {rest : Stock σ} (ho : M.stock.offer = .reserved rest)
    (hs : M'.stock = rest) (hc' : M'.closed = false)
    (hheld : n'.held + n'.building ≤ n.held + n.building + 1) : Bounded M' n' := by
  obtain ⟨-, hlent, -, -, -, hsized⟩ := h
  obtain ⟨-, hless, hnil, hactive⟩ := Stock.of_offer_reserved ho
  have hconfig := Stock.config?_of_offer_reserved ho
  have hmax := Stock.maxActive_congr hconfig
  have hpool : M'.stock.isPool = true := by
    rw [hs, Stock.isPool_congr hconfig]
    exact Stock.isPool_of_offer_reserved ho
  refine ⟨?_, by rw [hs]; omega, by simp [hpool], by simp [hpool], by simp [hc'], ?_⟩
  · rw [hs, hnil, List.length_nil]
    omega
  · rw [hs, hconfig, hnil]
    intro config hcfg
    exact ⟨(hsized config hcfg).1, Nat.zero_le _⟩

/-- **Freeing a slot keeps the bounds**, if whoever had it goes. -/
theorem of_vacated (h : Bounded M n) (hs : M'.stock = M.stock.vacate) (hc : M'.closed = M.closed)
    (hfree : M.stock.isPool = false → M'.closed = true ∨ M'.poisoned = true)
    (hheld : n'.held + n'.building + 1 ≤ n.held + n.building)
    (hbuild : n'.building ≤ n.building) : Bounded M' n' := by
  obtain ⟨hroom, hlent, hgrows, -, hbare, hsized⟩ := h
  have hmax := Stock.maxActive_congr M.stock.config?_vacate
  have hpool := Stock.isPool_congr M.stock.config?_vacate
  refine ⟨?_, ?_, ?_, ?_, ?_, ?_⟩
  · rw [hs, hmax, Stock.active_vacate, Stock.contexts_vacate]
    omega
  · rw [hs, Stock.active_vacate]
    omega
  · rw [hs, hpool]
    intro hk
    have := hgrows hk
    omega
  · rw [hs, hpool]
    intro hk hopen hsound
    rcases hfree hk with h | h
    · rw [hopen] at h; cases h
    · rw [hsound] at h; cases h
  · rw [hs, hc, Stock.contexts_vacate]
    exact hbare
  · rw [hs, Stock.config?_vacate, Stock.contexts_vacate]
    exact hsized

/-- A context of a manager of one that is lent cannot be at hand as well. -/
theorem contexts_eq_nil (h : Bounded M n) (hk : M.stock.isPool = false) (hheld : 0 < n.held) :
    M.stock.contexts = [] := by
  have hmax := Stock.maxActive_of_not_isPool hk
  have hroom := h.room
  have hlent := h.lent
  exact List.length_eq_zero_iff.1 (by omega)

/-- A manager that keeps a context has room for it. -/
theorem contexts_put (h : Bounded M n) (hheld : 0 < n.held) (c : Context σ) :
    (M.stock.vacate.put c).contexts = M.stock.contexts ++ [c] := by
  rw [Stock.contexts_put, Stock.contexts_vacate]
  rw [Stock.isPool_congr M.stock.config?_vacate, Stock.contexts_vacate]
  cases hk : M.stock.isPool with
  | true => exact .inl rfl
  | false => exact .inr (h.contexts_eq_nil hk hheld)

theorem length_contexts_put (h : Bounded M n) (hheld : 0 < n.held) (c : Context σ) :
    (M.stock.vacate.put c).contexts.length = M.stock.contexts.length + 1 := by
  rw [h.contexts_put hheld, List.length_append, List.length_singleton]

/-- **Keeping a context that comes back keeps the bounds.** -/
theorem of_kept (h : Bounded M n) {c : Context σ} (hk : M.keeps = true)
    (hs : M'.stock = M.stock.vacate.put c) (hc : M'.closed = M.closed)
    (hp : M'.poisoned = M.poisoned) (hheld : n'.held + 1 = n.held)
    (hbuild : n'.building = n.building) : Bounded M' n' := by
  have hput := h.length_contexts_put (by omega) c
  obtain ⟨hroom, hlent, hgrows, hsingle, -, hsized⟩ := h
  have hactive : (M.stock.vacate.put c).active = M.stock.active - 1 := by simp
  have hconfig : (M.stock.vacate.put c).config? = M.stock.config? := by simp
  have hmax := Stock.maxActive_congr hconfig
  have hpool := Stock.isPool_congr hconfig
  simp only [Manager.keeps, Bool.and_eq_true, Bool.not_eq_true'] at hk
  refine ⟨by rw [hs]; omega, by rw [hs]; omega, ?_, ?_, by simp [hc, hk.1], ?_⟩
  · rw [hs, hpool, hbuild]
    exact hgrows
  · rw [hs, hc, hp, hpool]
    intro h₁ h₂ h₃
    have := hsingle h₁ h₂ h₃
    omega
  · rw [hs, hconfig]
    intro config hcfg
    have := (Stock.keeps_iff hcfg).1 hk.2
    exact ⟨(hsized config hcfg).1, by omega⟩

/-- **A shutdown keeps the bounds.** -/
theorem of_shut (h : Bounded M n) (hheld : n'.held = n.held) (hbuild : n'.building = n.building) :
    Bounded M.shut n' := by
  obtain ⟨hroom, hlent, hgrows, -, -, hsized⟩ := h
  have hmax := Stock.maxActive_congr M.stock.config?_emptied
  have hpool := Stock.isPool_congr M.stock.config?_emptied
  refine ⟨?_, ?_, ?_, nofun, fun _ => by simp, ?_⟩
  · rw [Manager.stock_shut, hmax, Stock.active_emptied, Stock.contexts_emptied, List.length_nil]
    omega
  · rw [Manager.stock_shut, Stock.active_emptied]
    omega
  · rw [Manager.stock_shut, hpool, hbuild]
    exact hgrows
  · rw [Manager.stock_shut, Stock.config?_emptied, Stock.contexts_emptied]
    intro config hcfg
    exact ⟨(hsized config hcfg).1, Nat.zero_le _⟩

/-! ## All runs -/

/-- **Every move keeps the bounds of a manager.** -/
theorem step (he : Entry panics locked d M n M' n') (h : Bounded M n) : Bounded M' n' := by
  cases he with
  | lent hl hp hc ho ha hn =>
    obtain ⟨-, -, -, hbuild, hheld, -⟩ := hn
    dsimp only at hbuild hheld
    exact h.of_lent ho hc rfl hc (fun h => h) (by omega) (by omega)
  | lentCrash hl hp hc ho hb ha hn =>
    obtain ⟨-, -, -, hbuild, hheld, -⟩ := hn
    dsimp only at hbuild hheld
    exact h.of_lent ho hc rfl hc nofun (by omega) (by omega)
  | reserved hl hp hc ho ha hn =>
    obtain ⟨-, -, -, hbuild, hheld, -⟩ := hn
    dsimp only at hbuild hheld
    exact h.of_reserved ho rfl hc (by omega)
  | gaveUp hl hn =>
    obtain ⟨-, -, -, hbuild, hheld, -⟩ := hn
    dsimp only at hbuild hheld
    refine h.of_vacated rfl rfl (fun hk => ?_) (by omega) (by omega)
    have := h.grows hk
    omega
  | keptCrash hl hp hk hb hn =>
    obtain ⟨-, -, -, hbuild, hheld, -⟩ := hn
    dsimp only at hbuild hheld
    exact h.of_vacated rfl rfl (fun _ => .inr rfl) (by omega) (by omega)
  | turnedAway hl hp hk hn =>
    obtain ⟨-, -, -, hbuild, hheld, -⟩ := hn
    dsimp only at hbuild hheld
    have hclosed : M.stock.isPool = false → M.closed = true := fun hpool =>
      Manager.closed_of_not_keeps hpool hk
    exact h.of_vacated rfl rfl (fun hpool => .inl (hclosed hpool)) (by omega) (by omega)
  | kept hl hp hk hn =>
    obtain ⟨-, -, -, hbuild, hheld, -⟩ := hn
    dsimp only at hbuild hheld
    exact h.of_kept hk rfl rfl rfl (by omega) (by omega)
  | shut hl hp hn => exact h.of_shut hn.held hn.building
  | still hn | came hn | went _ _ _ hn | fellAsleep _ _ _ _ _ hn | awoke hn | buildCrash _ hn
  | counted hn | countedCrash _ hn | lost hn | wasted _ hn | discarded hn | drainCrash _ hn =>
    obtain ⟨-, -, -, hbuild, hheld, -⟩ := hn
    dsimp only at hbuild hheld
    exact h.of_stock rfl rfl rfl (by omega) (by omega)

/-- A move makes the list at hand longer only by keeping a context for which there is room. -/
theorem longer (he : Entry panics locked d M n M' n') (h : Bounded M n)
    (hlong : M.stock.contexts.length < M'.stock.contexts.length) :
    M.keeps = true ∧ M'.stock.contexts.length = M.stock.contexts.length + 1 := by
  cases he with
  | lent hl hp hc ho ha hn =>
    rw [Stock.contexts_of_offer_lent ho, List.length_cons] at hlong
    exact absurd hlong (Nat.not_lt.2 (Nat.le_succ _))
  | lentCrash hl hp hc ho hb ha hn =>
    rw [Stock.contexts_of_offer_lent ho, List.length_cons] at hlong
    exact absurd hlong (Nat.not_lt.2 (Nat.le_succ _))
  | reserved hl hp hc ho ha hn =>
    rw [show (Manager.withStock _ _).stock.contexts = [] from
      (Stock.of_offer_reserved ho).2.2.1] at hlong
    exact absurd hlong (Nat.not_lt_zero _)
  | gaveUp hl hn => exact absurd hlong (by simp [Manager.withStock])
  | keptCrash hl hp hk hb hn => exact absurd hlong (by simp [Manager.withStock, Manager.poison])
  | turnedAway hl hp hk hn => exact absurd hlong (by simp [Manager.withStock])
  | @kept _ _ _ c hl hp hk hn =>
    have hheld := hn.held
    dsimp only at hheld
    exact ⟨hk, h.length_contexts_put (by omega) c⟩
  | shut hl hp hn => exact absurd hlong (by simp)
  | still | came | went | fellAsleep | awoke | buildCrash | counted | countedCrash | lost | wasted
  | discarded | drainCrash => exact absurd hlong (Nat.lt_irrefl _)

end Bounded

/-- The sizes of a pool never change. -/
theorem Entry.config?_eq {M M' : Manager σ} {n n' : Tally} {panics locked : Prop} {d : Nat}
    (he : Entry panics locked d M n M' n') : M'.stock.config? = M.stock.config? := by
  cases he with
  | lent hl hp hc ho ha hn => exact Stock.config?_of_offer_lent ho
  | lentCrash hl hp hc ho hb ha hn => exact Stock.config?_of_offer_lent ho
  | reserved hl hp hc ho ha hn => exact Stock.config?_of_offer_reserved ho
  | gaveUp hl hn => simp [Manager.withStock]
  | kept hl hp hk hn => simp [Manager.withStock]
  | keptCrash hl hp hk hb hn => simp [Manager.withStock, Manager.poison]
  | turnedAway hl hp hk hn => simp [Manager.withStock]
  | shut hl hp hn => simp
  | _ => rfl

namespace State

variable {invoke : Invoke σ} {s : State σ} {m : ManagerId} {M : Manager σ} {config : PoolConfig}
  {active : Nat} {idle : List (Context σ)}

/-- **Every manager is within its bounds wherever a run leads**, whoever was signalled. -/
theorem Reachable.bounded (hs : Reachable invoke s) (hM : s.manager? m = some M)
    (signalled : Nat → Bool) : Bounded M (s.tally signalled m) := by
  obtain ⟨before, hw⟩ := hs.watched
  have h : Bounded M (s.tally before m) := ledger_induction (P := Bounded)
    (fun _ _ _ hl hv => Bounded.start hl hv) (fun he h => h.step he) hw hM
  exact ⟨h.room, h.lent, h.grows, h.single, h.bare, h.sized⟩

/-- What holds of a pool of which `active` contexts are lent or being built and `idle` are at
hand. -/
structure PoolBounds (invoke : Invoke σ) (s : State σ) (m : ManagerId) (config : PoolConfig)
    (active : Nat) (idle : List (Context σ)) : Prop where
  room : active + idle.length ≤ config.maxActive
  /-- Callers that hold one of its contexts or build one are counted. -/
  counted : total (Place.holds m) s.places + total (Place.builds m) s.places ≤ active
  most : total (Place.holds m) s.places + total (Place.builds m) s.places ≤ config.maxActive
  atHand : idle.length ≤ max config.startCount config.maxIdle
  longer : ∀ mv t M' config' active' idle', s.move invoke mv = some t →
    t.manager? m = some M' → M'.stock = .pool config' active' idle' →
      idle.length < idle'.length → idle'.length ≤ config'.maxIdle
  /-- One more can be counted whenever an opener is let through. -/
  lends : ∀ c rest, (Stock.pool config active idle).offer = .lent c rest →
    active < config.maxActive
  reserves : ∀ rest, (Stock.pool config active idle).offer = .reserved rest →
    active < config.maxActive
  /-- One fewer can be counted whenever a context comes back or a slot is given up. -/
  comesBack : ∀ aim c, .returning m aim c ∈ s.places → c.owner = some m → 0 < active
  givesUp : ∀ r e, .abandoned r e ∈ s.places → r.manager = m → 0 < active

/-- **A pool never lends more than it may**: whatever callers do, and whether factories fail or come
to grief, what a pool has lent or is building and what it has at hand are together at most
`maxActive`, every context that somebody holds or builds is counted, and the count is never raised
above `maxActive` or lowered below zero. -/
theorem Reachable.pool_bounds (hs : Reachable invoke s) (hM : s.manager? m = some M)
    (hstock : M.stock = .pool config active idle) : PoolBounds invoke s m config active idle := by
  have hb := hs.bounded hM fun _ => false
  have hconfig : M.stock.config? = some config := by rw [hstock]; rfl
  have hroom : active + idle.length ≤ config.maxActive := by
    have := hb.room
    rw [hstock] at this
    exact this
  have hlent : total (Place.holds m) s.places + total (Place.builds m) s.places ≤ active := by
    have := hb.lent
    rw [hstock] at this
    exact this
  have hidle : idle.length ≤ max config.startCount config.maxIdle := by
    have := (hb.sized config hconfig).2
    rw [hstock] at this
    exact this
  refine ⟨hroom, hlent, by omega, hidle, ?_, ?_, ?_, ?_, ?_⟩
  · intro mv t M' config' active' idle' hm hM' hstock' hlong
    have he := ledger_step hs.registered hm hM hM' fun _ => false
    have hsame : some config' = some config := by
      rw [← hconfig, ← he.config?_eq, hstock']
      rfl
    obtain rfl := Option.some.inj hsame
    obtain ⟨hkeeps, hone⟩ := hb.longer he (by rw [hstock, hstock']; exact hlong)
    have hless := (Stock.keeps_iff hconfig).1 (by simp [Manager.keeps] at hkeeps; exact hkeeps.2)
    simp only [hstock, hstock', Stock.contexts] at hone hless
    omega
  · intro c rest ho
    have := congrArg List.length (Stock.contexts_of_offer_lent ho)
    simp only [Stock.contexts, List.length_cons] at this
    omega
  · intro rest ho
    exact (Stock.of_offer_reserved ho).2.1
  · intro aim c hp ho
    have := le_total (Place.holds m) hp
    simp only [Place.holds, ho, if_true] at this
    omega
  · intro r e hp hr
    have := le_total (Place.builds m) hp
    simp only [Place.builds, hr, if_true] at this
    omega

/-- The hypotheses are satisfiable: of a pool for two, one context is lent and one is being
built. -/
theorem pool_bounds_lent_and_building : ∃ (s : State Unit) (M : Manager Unit),
    Reachable inert s ∧ s.manager? ⟨1⟩ = some M ∧ M.stock = .pool ⟨1, 2, 1⟩ 2 [] ∧
      PoolBounds inert s ⟨1⟩ ⟨1, 2, 1⟩ 2 [] := by
  have hs : Reachable inert _ := ⟨[plain],
    [.begin 0 (.establish 0 (.pool ⟨1, 2, 1⟩)), .run 0 0, .run 0 0,
      .begin 1 (.acquire ⟨1⟩ .hold none), .run 1 0, .begin 2 (.acquire ⟨1⟩ .hold none), .run 2 0],
    rfl⟩
  exact ⟨_, _, hs, rfl, rfl, hs.pool_bounds rfl rfl⟩

end State
end Lending
end HookPool
