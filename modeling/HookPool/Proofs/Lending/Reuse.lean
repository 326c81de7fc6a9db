/-
# Reuse pays off

A pool that may keep as many contexts as it lends never throws one away before its shutdown, and
never makes more than are needed at once: what it has made and what is being made are together as
many as it has had out at once at the most, or as many as it was made with (`CalmRun.reuses`).

The sum of both goes up only when an opener reserves a slot.  Then nothing is at hand, and as long as
nothing was thrown away all contexts are out (`Thrifty.step`).  It goes down only when a slot is given
up after a failure.

A factory is asked for a context by an opener only after the opener found nothing at hand when it
reserved its slot (`reserved_of_asked`), whatever the pool may keep.
-/
import HookPool.Proofs.Lending.Accounting
import HookPool.Proofs.Lending.Caller

namespace HookPool
namespace Lending

variable {σ : Type}

theorem Stock.maxActive_of_config? {s : Stock σ} {config : PoolConfig}
    (h : s.config? = some config) : s.maxActive = config.maxActive := by
  cases s with
  | pool config' active idle =>
    obtain rfl := Option.some.inj h
    rfl
  | single slot out => cases h

/-! ## What a move does to the sum of what was made and what is being made -/

section

variable {M M' : Manager σ} {n n' : Tally} {panics locked : Prop} {d peak failed gave : Nat}
  {config : PoolConfig}

/-- How the sum of the contexts that were made and those that are being made changes. -/
inductive Growth (locked : Prop) (M : Manager σ) (n : Tally) (M' : Manager σ) (n' : Tally) :
    Prop where
  | same (h : M'.created + n'.building = M.created + n.building)
  /-- A slot is reserved, because nothing is at hand. -/
  | reserved (h : M'.created + n'.building = M.created + n.building + 1) (hc : M.closed = false)
    (hnil : M.stock.contexts = []) (hactive : M'.stock.active = M.stock.active + 1)
  /-- A slot is given up. -/
  | gaveUp (hl : locked) (h : M'.created + n'.building + 1 = M.created + n.building)
    (hb : n'.building < n.building)

theorem Entry.growth (he : Entry panics locked d M n M' n') (hcalm : ¬panics) :
    Growth locked M n M' n' := by
  cases he with
  | buildCrash hp | countedCrash hp => exact absurd hp hcalm
  | reserved hl hp hc ho ha hn =>
    have hbuild : n'.building = n.building + 1 := hn.building
    obtain ⟨hnil, -, -, hactive⟩ := Stock.of_offer_reserved ho
    exact .reserved (by rw [hbuild]; rfl) hc hnil hactive
  | gaveUp hl hn =>
    have hbuild : n'.building + 1 = n.building := hn.building
    exact .gaveUp hl (by rw [← hbuild]; rfl) (by omega)
  | counted hn =>
    have hbuild : n'.building + 1 = n.building := hn.building
    refine .same ?_
    simp only [Manager.countCreated]
    omega
  | still hn | came hn | went _ _ _ hn | fellAsleep _ _ _ _ _ hn | awoke hn | lent _ _ _ _ _ hn
  | lentCrash _ _ _ _ _ _ hn | lost hn | wasted _ hn | kept _ _ _ hn | keptCrash _ _ _ _ hn
  | turnedAway _ _ _ hn | discarded hn | drainCrash _ hn | shut _ _ hn =>
    have hbuild : n'.building = n.building := hn.building
    exact .same (congrArg (M.created + ·) hbuild)

/-- **An open pool that may keep as many contexts as it lends has room for each one that comes
back**, so that none goes on its way to be destroyed. -/
theorem Entry.spared (he : Entry panics locked d M n M' n') (hb : Bounded M n)
    (hconfig : M.stock.config? = some config) (hroomy : config.maxActive ≤ config.maxIdle)
    (hopen : M'.closed = false) :
    M.closed = false ∧ M'.destroyed + n'.leaving ≤ M.destroyed + n.leaving := by
  cases he with
  | turnedAway hl hp hk hn =>
    have hheld : n'.held + 1 = n.held := hn.held
    have hc : M.closed = false := hopen
    have hfull : ¬M.stock.contexts.length < config.maxIdle := by
      rw [← Stock.keeps_iff hconfig]
      simpa [Manager.keeps, hc] using hk
    have hmax := Stock.maxActive_of_config? hconfig
    have hroom := hb.room
    have hlent := hb.lent
    omega
  | shut hl hp hn => cases hopen
  | discarded hn =>
    have hleave : n'.leaving + 1 = n.leaving := hn.leaving
    refine ⟨hopen, ?_⟩
    simp only [Manager.countDestroyed]
    omega
  | @drainCrash _ _ _ rest hb hn =>
    have hleave : n'.leaving + (rest + 1) = n.leaving := hn.leaving
    refine ⟨hopen, ?_⟩
    simp only [Manager.countDestroyed]
    omega
  | still hn | came hn | went _ _ _ hn | fellAsleep _ _ _ _ _ hn | awoke hn | lent _ _ _ _ _ hn
  | lentCrash _ _ _ _ _ _ hn | reserved _ _ _ _ _ hn | buildCrash _ hn | counted hn
  | countedCrash _ hn | gaveUp _ hn | lost hn | wasted _ hn | kept _ _ _ hn
  | keptCrash _ _ _ _ hn =>
    have hleave : n'.leaving = n.leaving := hn.leaving
    exact ⟨hopen, Nat.le_of_eq (congrArg (M.destroyed + ·) hleave)⟩

/-- What is known of the sizes and counters of a pool of which `peak` contexts at the most were lent
or being built at once, and which has given up `failed` slots. -/
structure Thrifty (peak failed : Nat) (M : Manager σ) (n : Tally) (config : PoolConfig) : Prop where
  /-- No fewer were made than were out at once. -/
  least : max config.startCount peak ≤ M.created + n.building + failed
  within : peak ≤ config.maxActive
  whole : config.maxActive ≤ config.maxIdle → M.closed = false → M.destroyed + n.leaving = 0
  most : config.maxActive ≤ config.maxIdle →
    M.created + n.building ≤ max config.startCount peak

namespace Thrifty

theorem start {sizes : PoolConfig} {factory : Nat} {built : List (Context σ)}
    (hconfig : (State.firstManager (.pool sizes) factory built).stock.config? = some config) :
    Thrifty 0 0 (State.firstManager (.pool sizes) factory built) {} config := by
  obtain rfl : sizes = config := Option.some.inj hconfig
  exact ⟨Nat.le_of_eq (Nat.max_zero _), Nat.zero_le _, fun _ _ => rfl,
    fun _ => Nat.le_max_left ..⟩

/-- **Every move in which nobody comes to grief keeps a pool thrifty.**  The sum grows when a slot is
reserved: all contexts are out then, and so is the new one. -/
theorem step {dropped dropped' : Nat} (he : Entry panics locked d M n M' n') (hcalm : ¬panics)
    (hb : Bounded M n) (hb' : Bounded M' n') (hsum : Balanced dropped M n)
    (hsum' : Balanced dropped' M' n') (hconfig : M.stock.config? = some config)
    (hgave : locked → n'.building < n.building → 1 ≤ gave) (h : Thrifty peak failed M n config) :
    Thrifty (max peak M'.stock.active) (failed + gave) M' n' config := by
  have hout := hsum'.contexts
  have hmax : M'.stock.active ≤ config.maxActive := by
    have := hb'.room
    rw [Stock.maxActive_of_config? (he.config?_eq.trans hconfig)] at this
    omega
  have hwhole (hroomy : config.maxActive ≤ config.maxIdle) (hopen : M'.closed = false) :
      M.closed = false ∧ M'.destroyed + n'.leaving = 0 := by
    obtain ⟨hc, hle⟩ := he.spared hb hconfig hroomy hopen
    have := h.whole hroomy hc
    exact ⟨hc, by omega⟩
  refine ⟨?_, Nat.max_le.2 ⟨h.within, hmax⟩, fun hroomy hopen => (hwhole hroomy hopen).2,
    fun hroomy => ?_⟩
  · have hleast := h.least
    rcases he.growth hcalm with hg | ⟨hg, -, -, -⟩ | ⟨hl, hg, hfewer⟩
    · omega
    · omega
    · have := hgave hl hfewer
      omega
  · have hmost := h.most hroomy
    rcases he.growth hcalm with hg | ⟨hg, hc, hnil, hactive⟩ | ⟨-, hg, -⟩
    · omega
    · have hall := hsum.contexts
      have hnone := h.whole hroomy hc
      rw [hnil, List.length_nil] at hall
      omega
    · omega

end Thrifty

end

namespace State

variable {invoke : Invoke σ} {s t : State σ} {mv : Move σ} {moves : List (Move σ)} {i : Nat}
  {p : Place σ} {u : Upshot σ} {r : Request} {m : ManagerId} {M : Manager σ} {config : PoolConfig}
  {peak failed dropped : Nat}

/-! ## What is remembered of a run -/

/-- How many contexts of the manager are lent or being built. -/
def activeAt (s : State σ) (m : ManagerId) : Nat :=
  ((s.manager? m).map fun M => M.stock.active).getD 0

/-- The most contexts of the manager that are lent or being built at once on a run. -/
def peakOn (invoke : Invoke σ) (m : ManagerId) (s : State σ) : List (Move σ) → Nat
  | [] => s.activeAt m
  | mv :: moves =>
    match s.move invoke mv with
    | some t => max (s.activeAt m) (t.peakOn invoke m moves)
    | none => s.activeAt m

/-- Whether a slot of the manager is given up in the move, as what was to fill it could not be
built. -/
def givesUp (s : State σ) (m : ManagerId) : Move σ → Nat
  | .run caller _ =>
    match s.placeOf caller with
    | .abandoned r _ => if r.manager = m then 1 else 0
    | _ => 0
  | _ => 0

/-- How many slots of the manager are given up on a run. -/
def givenUpOn (invoke : Invoke σ) (m : ManagerId) (s : State σ) : List (Move σ) → Nat
  | [] => 0
  | mv :: moves =>
    match s.move invoke mv with
    | some t => s.givesUp m mv + t.givenUpOn invoke m moves
    | none => 0

theorem activeAt_eq (h : s.manager? m = some M) : s.activeAt m = M.stock.active := by
  rw [activeAt, h]
  rfl

theorem activeAt_eq_zero (h : s.manager? m = none) : s.activeAt m = 0 := by
  rw [activeAt, h]
  rfl

theorem activeAt_le_peakOn (invoke : Invoke σ) (s : State σ) (m : ManagerId)
    (moves : List (Move σ)) : s.activeAt m ≤ s.peakOn invoke m moves := by
  cases moves with
  | nil => exact Nat.le_refl _
  | cons mv moves =>
    rw [peakOn]
    split
    · exact Nat.le_max_left ..
    · exact Nat.le_refl _

/-- Whoever gives up a slot has to do with its manager. -/
theorem givesUp_le (s : State σ) (m : ManagerId) (mv : Move σ) :
    s.givesUp m mv ≤ total (Place.claims m) s.places := by
  cases mv with
  | run caller chosen =>
    refine Nat.le_trans ?_ (placeOf_le_total (by simp) caller)
    rw [givesUp]
    cases s.placeOf caller <;> simp
  | _ => exact Nat.zero_le _

/-- **A caller that has the lock and builds no more gives up its slot.** -/
theorem one_le_givesUp (hm : s.move invoke mv = some t) (hl : s.locks m mv = true)
    (hb : total (Place.builds m) t.places < total (Place.builds m) s.places) :
    1 ≤ s.givesUp m mv := by
  obtain ⟨i, u, hi, hu, hf⟩ | hidle := move_turn hm
  · have htotal := hf.total hi (steady_builds m) rfl
    have hown : 0 < (s.placeOf i).builds m := by omega
    obtain ⟨p, hp⟩ : ∃ p, s.placeOf i = p := ⟨_, rfl⟩
    rw [hp] at hu hown
    obtain ⟨chosen, rfl⟩ := hu.runs (by cases p <;> first | rfl | cases hown)
    cases p with
    | abandoned r e =>
      by_cases hr : r.manager = m
      · simp [givesUp, hp, hr]
      · simp [hr] at hown
    | building r => simp [locks, hp] at hl
    | grown r c => simp [locks, hp] at hl
    | _ => cases hown
  · rw [hidle.places] at hb
    exact absurd hb (Nat.lt_irrefl _)

/-! ## Calm runs -/

/-- A pool is thrifty, and nothing has come of it before it was made. -/
structure Saving (peak failed : Nat) (s : State σ) (m : ManagerId) : Prop where
  reached : s.activeAt m ≤ peak
  thrifty : ∀ M signalled config, s.manager? m = some M → M.stock.config? = some config →
    Thrifty peak failed M (s.tally signalled m) config
  fresh : s.Fresh m → peak = 0 ∧ failed = 0

theorem saving_initial (factories : List (Factory σ)) (m : ManagerId) :
    Saving 0 0 (initial factories) m := by
  have hnone : (initial factories).manager? m = none := by
    obtain ⟨_ | n⟩ := m <;> simp [State.manager?, initial]
  refine ⟨Nat.le_of_eq (activeAt_eq_zero hnone), fun M _ _ hM => ?_, fun _ => ⟨rfl, rfl⟩⟩
  rw [hnone] at hM
  cases hM

theorem Saving.move (hs : Reachable invoke s) (hm : s.move invoke mv = some t) (hc : t.Calm)
    (hbook : Booked dropped s m) (h : Saving peak failed s m) :
    Saving (max peak (t.activeAt m)) (failed + s.givesUp m mv) t m := by
  have hr := hs.registered
  have hbook' := hbook.move hs hm hc
  have hgave : s.Fresh m → s.givesUp m mv = 0 := fun hf =>
    Nat.le_zero.1 (hr.claims_eq_zero hf ▸ givesUp_le s m mv)
  refine ⟨Nat.le_max_right .., fun M' signalled config hM' hconfig' => ?_, fun hf => ?_⟩
  · cases hM : s.manager? m with
    | none =>
      obtain ⟨hf, he, plan, factory, built, rfl, -⟩ := ledger_start hr hm hM hM' signalled
      obtain ⟨rfl, rfl⟩ := h.fresh hf
      rw [activeAt_eq hM', he, hgave hf]
      cases plan with
      | pool sizes => exact Thrifty.start hconfig'
      | single => cases hconfig'
    | some M =>
      have he := ledger_step hr hm hM hM' fun _ => false
      have hconfig : M.stock.config? = some config := by rw [← he.config?_eq, hconfig']
      have h' := (h.thrifty M (fun _ => false) config hM hconfig).step he (fun hn => hn hc)
        (hs.bounded hM _) ((hs.move hm).bounded hM' _) (hbook.balanced M _ hM)
        (hbook'.balanced M' _ hM') hconfig (one_le_givesUp hm)
      rw [activeAt_eq hM']
      exact ⟨h'.least, h'.within, h'.whole, h'.most⟩
  · have hf' := hf.of_move hm
    obtain ⟨rfl, rfl⟩ := h.fresh hf'
    have hnone : t.manager? m = none := by
      cases hM' : t.manager? m with
      | none => rfl
      | some M' => exact absurd hf ((hs.move hm).registered.not_fresh hM')
    rw [hgave hf', activeAt_eq_zero hnone]
    exact ⟨rfl, rfl⟩

/-- **A calm run keeps a pool thrifty.** -/
theorem CalmRun.saving (h : CalmRun invoke s moves t) (hs : Reachable invoke s)
    (hbook : Booked dropped s m) (hsave : Saving peak failed s m) :
    Saving (max peak (s.peakOn invoke m moves)) (failed + s.givenUpOn invoke m moves) t m := by
  induction h generalizing dropped peak failed with
  | nil hc =>
    rw [peakOn, Nat.max_eq_left hsave.reached]
    exact hsave
  | @cons s t u mv moves hc hm hr ih =>
    have hlater := ih (hs.move hm) (hbook.move hs hm hr.calm_start)
      (hsave.move hs hm hr.calm_start hbook)
    have hpeak : max (max peak (t.activeAt m)) (t.peakOn invoke m moves) =
        max peak (s.peakOn invoke m (mv :: moves)) := by
      have := hsave.reached
      have := activeAt_le_peakOn invoke t m moves
      simp only [peakOn, hm]
      omega
    rw [hpeak] at hlater
    simpa only [givenUpOn, hm, Nat.add_assoc] using hlater

/-! ## Openers that ask a factory -/

/-- On the run the caller has reserved a slot for the request, when its manager had nothing at hand,
and it has had no turn since. -/
def ReservedOn (invoke : Invoke σ) (s : State σ) (moves : List (Move σ)) (i : Nat)
    (r : Request) : Prop :=
  ∃ before chosen after s₀ M rest s₁, moves = before ++ .run i chosen :: after ∧
    s.run invoke before = some s₀ ∧ s₀.placeOf i = .asking r ∧ s₀.manager? r.manager = some M ∧
    M.stock.contexts = [] ∧ M.stock.offer = .reserved rest ∧
    s₀.move invoke (.run i chosen) = some s₁ ∧ s₁.placeOf i = .building r ∧ turnsOf i after = 0

theorem ReservedOn.cons (hm : s.move invoke mv = some t) (h : ReservedOn invoke t moves i r) :
    ReservedOn invoke s (mv :: moves) i r := by
  obtain ⟨before, chosen, after, s₀, M, rest, s₁, rfl, hrun, h⟩ := h
  exact ⟨mv :: before, chosen, after, s₀, M, rest, s₁, rfl, by simp [State.run, hm, hrun], h⟩

/-- A caller comes to build only by reserving a slot. -/
theorem Turn.reserves (h : Turn invoke s i mv p u) (hu : u.place = .building r) :
    ∃ chosen M rest, mv = .run i chosen ∧ p = .asking r ∧ s.manager? r.manager = some M ∧
      M.stock.offer = .reserved rest := by
  have hserved (r' : Request) (c : Context σ) : r'.served c ≠ .building r :=
    r'.served_induction c (by simp) (by simp)
  cases h with
  | opening h =>
    cases h with
    | lent | counted => exact absurd hu (hserved _ _)
    | reserved hM hp hc ho =>
      cases hu
      exact ⟨_, _, _, rfl, rfl, hM, ho⟩
    | _ => cases hu
  | beginning h | givingBack h | stopping h | making h | dealing h => cases h <;> cases hu
  | works | rousing => cases hu

/-- **Whoever builds has reserved a slot**, and has had no turn since. -/
theorem reservedOn_of_building (h : s.run invoke moves = some t) (hi : t.placeOf i = .building r) :
    s.placeOf i = .building r ∧ turnsOf i moves = 0 ∨ ReservedOn invoke s moves i r := by
  induction moves generalizing s with
  | nil =>
    obtain rfl := Option.some.inj h
    exact .inl ⟨hi, rfl⟩
  | cons mv moves ih =>
    obtain ⟨t₁, hm, h⟩ := run_cons h
    rcases ih h with ⟨hbuild, hnone⟩ | hres
    · obtain ⟨-, u, -, hu, -, hplace⟩ | ⟨hturn, hplace | ⟨r', -, hplace⟩⟩ := move_cases hm i
      · obtain ⟨chosen, M, rest, rfl, hp, hM, ho⟩ := hu.reserves (hplace.symm.trans hbuild)
        exact .inr ⟨[], chosen, moves, s, M, rest, t₁, rfl, rfl, hp, hM,
          (Stock.of_offer_reserved ho).1, ho, hm, hbuild, hnone⟩
      · refine .inl ⟨hplace.symm.trans hbuild, ?_⟩
        rw [turnsOf, List.countP_cons, hturn]
        exact hnone
      · rw [hplace] at hbuild
        cases hbuild
    · exact .inr (hres.cons hm)

theorem factories_of_report {e : Event} {b : Bool} (h : s.report e = (t, b)) :
    t.factories = s.factories := by
  unfold report at h
  split at h
  · split at h <;> cases h <;> rfl
  · cases h
    rfl

@[simp] theorem factories_finish (s : State σ) (i : Nat) (o : Outcome) :
    (s.finish i o).factories = s.factories :=
  factories_put s i (.finished o)

@[simp] theorem factories_crash (s : State σ) (i : Nat) : (s.crash i).factories = s.factories :=
  factories_put s i _

@[simp] theorem factories_serve (s : State σ) (i : Nat) (r : Request) (c : Context σ) :
    (s.serve i r c).factories = s.factories :=
  factories_put s i _

@[simp] theorem factories_onManager (s : State σ) (m : ManagerId) (f : Manager σ → Manager σ) :
    (s.onManager m f).factories = s.factories := by
  unfold onManager
  split <;> rfl

@[simp] theorem factories_wakeOne (s : State σ) (m : ManagerId) (chosen : Nat) :
    (s.wakeOne m chosen).factories = s.factories := by
  rw [wakeOne_eq]

theorem factories_ask (s : State σ) (i : Nat) (r : Request) (M : Manager σ) :
    (s.ask i r M).factories = s.factories := by
  unfold ask
  split
  · exact factories_finish ..
  · split
    · exact factories_finish ..
    · split
      · dsimp only
        split
        next heq => simpa [wreck, record, setManager] using factories_of_report heq
        next heq => simpa [setManager] using factories_of_report heq
      · exact factories_put ..
      · unfold await
        split
        · exact factories_put ..
        · split
          · exact factories_finish ..
          · exact factories_put ..

theorem factories_countGrown (s : State σ) (i : Nat) (r : Request) (c : Context σ) :
    (s.countGrown i r c).factories = s.factories := by
  unfold countGrown
  split
  next heq => simpa [wreck, record] using factories_of_report heq
  next heq => simpa using factories_of_report heq

/-- **An opener asks a factory only while it builds.** -/
theorem building_of_asks (hm : s.move invoke mv = some t) (hi : mv.isTurnOf i = true)
    (hr : (s.placeOf i).request? = some r) (hasked : t.factories ≠ s.factories) :
    s.placeOf i = .building r := by
  obtain ⟨-, u, -, hu, -, -⟩ | ⟨hturn, -⟩ := move_cases hm i
  · cases hp : s.placeOf i with
    | building r' =>
      rw [hp] at hr
      obtain rfl := Option.some.inj hr
      rfl
    | asking r' =>
      rw [hp] at hu
      obtain ⟨chosen, rfl, -⟩ := hu.of_asking
      simp only [State.move, step?, mem_places_of_placeOf hp (by simp)] at hm
      obtain ⟨M, -, rfl⟩ := withManager_eq_some hm
      exact absurd (factories_ask ..) hasked
    | asleep r' =>
      rw [hp] at hu
      obtain ⟨rfl, -⟩ := hu.of_asleep
      simp only [State.move, rouse?, mem_places_of_placeOf hp (by simp)] at hm
      obtain rfl := Option.some.inj hm
      exact absurd (factories_put ..) hasked
    | grown r' c =>
      rw [hp] at hu
      obtain ⟨chosen, rfl⟩ := hu.runs rfl
      simp only [State.move, step?, mem_places_of_placeOf hp (by simp)] at hm
      obtain ⟨M, -, rfl⟩ := withManager_eq_some hm
      exact absurd (factories_countGrown ..) hasked
    | abandoned r' e =>
      rw [hp] at hu
      obtain ⟨chosen, rfl⟩ := hu.runs rfl
      simp only [State.move, step?, mem_places_of_placeOf hp (by simp)] at hm
      obtain ⟨M, -, rfl⟩ := withManager_eq_some hm
      exact absurd (by simp [abandon]) hasked
    | _ => rw [hp] at hr; cases hr
  · rw [hi] at hturn
    cases hturn

/-! ## The pool at any point of a run -/

/-- What is known of a pool of the given sizes after a run from the start, when it is `M`. -/
structure Reuses (invoke : Invoke σ) (factories : List (Factory σ)) (moves : List (Move σ))
    (s : State σ) (m : ManagerId) (M : Manager σ) (config : PoolConfig) : Prop where
  /-- No context was destroyed, nor is on its way to be, before the shutdown. -/
  spared : config.maxActive ≤ config.maxIdle → M.closed = false →
    M.destroyed = 0 ∧ total (Place.removes m) s.places = 0
  /-- No more are made than were needed at once. -/
  most : config.maxActive ≤ config.maxIdle →
    M.created + total (Place.builds m) s.places ≤
      max config.startCount ((initial factories).peakOn invoke m moves)
  within : config.maxActive ≤ config.maxIdle →
    M.created + total (Place.builds m) s.places ≤ config.maxActive
  /-- No fewer are made either, but for those that could not be built. -/
  least : max config.startCount ((initial factories).peakOn invoke m moves) ≤
    M.created + total (Place.builds m) s.places + (initial factories).givenUpOn invoke m moves
  equal : config.maxActive ≤ config.maxIdle →
    (initial factories).givenUpOn invoke m moves = 0 →
      M.created + total (Place.builds m) s.places =
        max config.startCount ((initial factories).peakOn invoke m moves)
  /-- An opener that asks a factory has found nothing at hand when it reserved its slot. -/
  asked : ∀ i mv t r, s.move invoke mv = some t → mv.isTurnOf i = true →
    (s.placeOf i).request? = some r → t.factories ≠ s.factories →
      ReservedOn invoke (initial factories) moves i r

/-- **Reuse pays off.**  On every run on which nobody comes to grief, a pool that may keep as many
contexts as it lends throws none away before its shutdown, and has at no time made more than it was
made with or has had out at once; and whatever a pool may keep, its openers ask the factory only if
they found nothing at hand. -/
theorem CalmRun.reuses {factories : List (Factory σ)}
    (h : CalmRun invoke (initial factories) moves s) (hM : s.manager? m = some M)
    (hconfig : M.stock.config? = some config) : Reuses invoke factories moves s m M config := by
  have hs : Reachable invoke s := ⟨factories, moves, h.run⟩
  have hthrift := (h.saving (reachable_initial invoke factories) (booked_initial factories m)
    (saving_initial factories m)).thrifty M (fun _ => false) config hM hconfig
  rw [Nat.zero_max, Nat.zero_add] at hthrift
  have hmost : config.maxActive ≤ config.maxIdle →
      M.created + total (Place.builds m) s.places ≤
        max config.startCount ((initial factories).peakOn invoke m moves) := hthrift.most
  have hleast : max config.startCount ((initial factories).peakOn invoke m moves) ≤
      M.created + total (Place.builds m) s.places + (initial factories).givenUpOn invoke m moves :=
    hthrift.least
  have hvalid := ((hs.bounded hM fun _ => false).sized config hconfig).1
  refine ⟨fun hroomy hopen => ?_, hmost, fun hroomy => ?_, hleast, fun hroomy hnone => ?_,
    fun i mv t r hm hi hr hasked => ?_⟩
  · exact Nat.add_eq_zero_iff.1 (hthrift.whole hroomy hopen)
  · exact Nat.le_trans (hmost hroomy) (Nat.max_le.2 ⟨hvalid.2, hthrift.within⟩)
  · rw [hnone] at hleast
    exact Nat.le_antisymm (hmost hroomy) hleast
  · have hbuild := building_of_asks hm hi hr hasked
    refine (reservedOn_of_building h.run hbuild).resolve_left fun hstart => ?_
    have hnew : (initial factories).placeOf i = .finished .done := rfl
    rw [hnew] at hstart
    cases hstart.1

/-- The hypotheses are satisfiable: a pool was made with one context, which is lent, and an opener that
found nothing at hand builds a second one. -/
theorem reuses_second_context : ∃ (moves : List (Move Unit)) (s t : State Unit) (M : Manager Unit),
    CalmRun inert (initial [plain]) moves s ∧ s.manager? ⟨1⟩ = some M ∧
      M.stock.config? = some ⟨1, 2, 2⟩ ∧ M.created = 1 ∧
      (initial [plain]).peakOn inert ⟨1⟩ moves = 2 ∧ s.move inert (.run 2 0) = some t ∧
      (t.factories.map Factory.asked, s.factories.map Factory.asked) = ([2], [1]) ∧
      Reuses inert [plain] moves s ⟨1⟩ M ⟨1, 2, 2⟩ := by
  have h : CalmRun inert (initial [plain])
      [.begin 0 (.establish 0 (.pool ⟨1, 2, 2⟩)), .run 0 0, .run 0 0,
        .begin 1 (.acquire ⟨1⟩ .hold none), .run 1 0, .begin 2 (.acquire ⟨1⟩ .lease none),
        .run 2 0] _ :=
    .cons (by decide) rfl (.cons (by decide) rfl (.cons (by decide) rfl (.cons (by decide) rfl
      (.cons (by decide) rfl (.cons (by decide) rfl (.cons (by decide) rfl
        (.nil (by decide))))))))
  exact ⟨_, _, _, _, h, rfl, rfl, rfl, rfl, rfl, rfl, h.reuses rfl rfl⟩

end State
end Lending
end HookPool
