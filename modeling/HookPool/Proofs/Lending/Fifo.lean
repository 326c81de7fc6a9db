/-
# The contexts at hand are a queue

`enteredOn` lists the contexts that come to be at hand on a run: those that are built while the
manager is being made, and those that come back and stay.  `takenOn` lists those that openers get at
once.  Both are read off the places of callers before and after each move, and know nothing of the
list that the manager keeps.

**As long as the manager is open, the contexts that came to be at hand are those that were taken,
followed by those that still are at hand** (`CalmRun.first_in_first_out`), in this order and on every
run on which nobody comes to grief.  A context that comes back stays exactly if the manager is open
and has room for it, and is destroyed otherwise; a shutdown destroys what is at hand from the front
to the back.
-/
import HookPool.Proofs.Lending.Serial
import HookPool.Proofs.Lending.Shutdown

namespace HookPool
namespace Lending

variable {σ : Type}

/-- The contexts that a caller leaves at hand by going from one place to another: one more that was
built while the manager is being made, or one that has come back and is not in the caller's hands any
more. -/
def Place.enters (m : ManagerId) : Place σ → Place σ → List (Context σ)
  | .warming k _ _ built, .warming _ _ _ built' => if k = m then built'.drop built.length else []
  | .returning k _ c, .finished _ => if k = m ∧ c.owner = some m then [c] else []
  | _, _ => []

/-- The contexts that an opener of the manager has in its hands as soon as it had the lock. -/
def Place.takes (m : ManagerId) : Place σ → Place σ → List (Context σ)
  | .asking r, q => if r.manager = m then q.contexts else []
  | _, _ => []

/-- Whoever has nothing to do with a manager neither leaves it anything nor takes anything. -/
theorem Place.idle_of_claims {m : ManagerId} {p : Place σ} (hc : p.claims m = 0)
    (hw : p.warms m = 0) (q : Place σ) : p.enters m q = [] ∧ p.takes m q = [] := by
  cases p with
  | warming k plan factory built => cases q <;> simp_all [enters, takes]
  | returning k aim c => cases q <;> simp_all [enters, takes]
  | asking r => cases q <;> simp_all [enters, takes]
  | _ => exact ⟨rfl, rfl⟩

namespace State

variable {invoke : Invoke σ} {s t : State σ} {mv : Move σ} {moves : List (Move σ)} {i j : Nat}
  {p : Place σ} {u : Upshot σ} {o : Outcome} {m : ManagerId} {M M' : Manager σ}
  {config : PoolConfig} {dropped : Nat} {entered taken : List (Context σ)}

/-! ## The history of a queue -/

/-- The contexts that come to be at hand in a move to `t`. -/
def enters (s t : State σ) (m : ManagerId) : Move σ → List (Context σ)
  | .run caller _ => (s.placeOf caller).enters m (t.placeOf caller)
  | _ => []

/-- The contexts that an opener gets at once in a move to `t`. -/
def takes (s t : State σ) (m : ManagerId) : Move σ → List (Context σ)
  | .run caller _ => (s.placeOf caller).takes m (t.placeOf caller)
  | _ => []

/-- The contexts of the manager that come to be at hand on a run, the first one first. -/
def enteredOn (invoke : Invoke σ) (m : ManagerId) (s : State σ) : List (Move σ) → List (Context σ)
  | [] => []
  | mv :: moves =>
    match s.move invoke mv with
    | some t => s.enters t m mv ++ t.enteredOn invoke m moves
    | none => []

/-- The contexts of the manager that openers get at once on a run, the first one first. -/
def takenOn (invoke : Invoke σ) (m : ManagerId) (s : State σ) : List (Move σ) → List (Context σ)
  | [] => []
  | mv :: moves =>
    match s.move invoke mv with
    | some t => s.takes t m mv ++ t.takenOn invoke m moves
    | none => []

theorem Turn.history (h : Turn invoke s i mv p u) (hp : s.placeOf i = p)
    (ht : t.placeOf i = u.place) (m : ManagerId) :
    s.enters t m mv = p.enters m u.place ∧ s.takes t m mv = p.takes m u.place := by
  cases h with
  | beginning h => cases h <;> exact ⟨rfl, rfl⟩
  | dealing h => cases h <;> exact ⟨rfl, rfl⟩
  | works => exact ⟨rfl, rfl⟩
  | rousing => exact ⟨rfl, rfl⟩
  | _ => rw [enters, takes, hp, ht]; exact ⟨rfl, rfl⟩

/-! ## A manager that is there -/

/-- The contexts at hand after a manager was replaced by another one that has the same. -/
theorem contexts_of_replaced {k : ManagerId} {M₀ M₁ : Manager σ} (hM : s.manager? m = some M)
    (hk : s.manager? k = some M₀)
    (hM' : Shift.lookUp m (some M) (.replace k (some M₁)) = some M')
    (hclosed : M₁.closed = M₀.closed) (hcontexts : M₁.stock.contexts = M₀.stock.contexts) :
    M'.closed = M.closed ∧ M'.stock.contexts = M.stock.contexts := by
  by_cases hkm : m = k
  · subst hkm
    obtain rfl := Option.some.inj (hM.symm.trans hk)
    obtain rfl : M₁ = M' := by simpa [Shift.lookUp] using hM'
    exact ⟨hclosed, hcontexts⟩
  · obtain rfl : M = M' := by simpa [Shift.lookUp, hkm] using hM'
    exact ⟨rfl, rfl⟩

/-- In the turn of a caller from one place to another one, contexts of an open manager are taken from
the front of those at hand and put at the back. -/
structure Passes (m : ManagerId) (p q : Place σ) (M M' : Manager σ) : Prop where
  before : M.closed = false
  contexts : p.takes m q ++ M'.stock.contexts = M.stock.contexts ++ p.enters m q

/-- Nothing comes and nothing goes. -/
theorem Passes.still {q : Place σ} (hopen : M'.closed = false)
    (h : M'.closed = M.closed ∧ M'.stock.contexts = M.stock.contexts)
    (htakes : p.takes m q = []) (henters : p.enters m q = []) : Passes m p q M M' :=
  ⟨h.1.symm.trans hopen, by rw [htakes, henters, h.2, List.nil_append, List.append_nil]⟩

theorem Opening.passes {chosen : Nat} (h : Opening s chosen p u) (hM : s.manager? m = some M)
    (hM' : u.shift.lookUp m (some M) = some M') (hcalm : u.place.isGrieving = false)
    (hopen : M'.closed = false) : Passes m p u.place M M' := by
  cases h with
  | lentCrash | buildFailedCrash | buildCrash | countedCrash => cases hcalm
  | @lent r M₀ c rest hm hp hc ho =>
    by_cases hr : r.manager = m
    · subst hr
      obtain rfl := Option.some.inj (hM.symm.trans hm)
      obtain rfl : _ = M' := by simpa [Shift.lookUp] using hM'
      refine ⟨hc, ?_⟩
      rw [show (Place.asking r).takes r.manager (r.served c) = [c] by
        simp [Place.takes, contexts_served], Stock.contexts_of_offer_lent ho]
      exact (List.append_nil _).symm
    · obtain rfl : M = M' := by simpa [Shift.lookUp, Ne.symm hr] using hM'
      exact .still hopen ⟨rfl, rfl⟩ (if_neg hr) rfl
  | reserved hm hp hc ho =>
    obtain ⟨hnil, -, hnil', -⟩ := Stock.of_offer_reserved ho
    exact .still hopen (contexts_of_replaced hM hm hM' rfl (hnil'.trans hnil.symm)) (ite_self _) rfl
  | counted hm => exact .still hopen (contexts_of_replaced hM hm hM' rfl rfl) rfl rfl
  | gaveUp hm =>
    exact .still hopen (contexts_of_replaced hM hm hM' rfl (Stock.contexts_vacate _)) rfl rfl
  | built | buildFailed =>
    obtain rfl := Option.some.inj hM'
    exact .still hopen ⟨rfl, rfl⟩ rfl rfl
  | barred | shutOut | fellAsleep | timedOut =>
    obtain rfl := Option.some.inj hM'
    exact .still hopen ⟨rfl, rfl⟩ (ite_self _) rfl

/-- **A return puts its context at the back, or leaves those at hand as they are.** -/
theorem GivingBack.passes {chosen : Nat} (h : GivingBack invoke s chosen p u)
    (hM : s.manager? m = some M) (hM' : u.shift.lookUp m (some M) = some M')
    (hcalm : u.place.isGrieving = false) (hsound : M.poisoned = false)
    (hput : ∀ aim c, p = .returning m aim c → c.owner = some m →
      (M.stock.vacate.put c).contexts = M.stock.contexts ++ [c])
    (hopen : M'.closed = false) : Passes m p u.place M M' := by
  cases h with
  | keptCrash => cases hcalm
  | called | undefined | undefinedCrash | refused =>
    obtain rfl := Option.some.inj hM'
    exact .still hopen ⟨rfl, rfl⟩ rfl rfl
  | refusedEnd hm ho =>
    obtain rfl := Option.some.inj hM'
    refine .still hopen ⟨rfl, rfl⟩ rfl (if_neg ?_)
    rintro ⟨rfl, howner⟩
    exact ho howner
  | barred hm ho hp =>
    obtain rfl := Option.some.inj hM'
    refine .still hopen ⟨rfl, rfl⟩ rfl (if_neg ?_)
    rintro ⟨rfl, -⟩
    obtain rfl := Option.some.inj (hM.symm.trans hm)
    rw [hsound] at hp
    cases hp
  | @kept k M₀ aim c hm ho hp hk =>
    by_cases hkm : k = m
    · subst hkm
      obtain rfl := Option.some.inj (hM.symm.trans hm)
      obtain rfl : _ = M' := by simpa [Shift.lookUp] using hM'
      refine ⟨hopen, ?_⟩
      rw [show (Place.returning k aim c).enters k (.finished (aim.verdict (.ok ()))) = [c] from
        if_pos ⟨rfl, ho⟩]
      exact hput aim c rfl ho
    · obtain rfl : M = M' := by simpa [Shift.lookUp, Ne.symm hkm] using hM'
      exact .still hopen ⟨rfl, rfl⟩ rfl (if_neg fun h => hkm h.1)
  | turnedAway hm =>
    exact .still hopen (contexts_of_replaced hM hm hM' rfl (Stock.contexts_vacate _)) rfl rfl
  | evicted hm => exact .still hopen (contexts_of_replaced hM hm hM' rfl rfl) rfl rfl

theorem Stopping.passes (h : Stopping s p u) (hM : s.manager? m = some M)
    (hM' : u.shift.lookUp m (some M) = some M') (hopen : M'.closed = false) :
    Passes m p u.place M M' := by
  cases h with
  | @stopped k M₀ hm =>
    by_cases hkm : k = m
    · subst hkm
      obtain rfl : _ = M' := by simpa [Shift.lookUp] using hM'
      cases hopen
    · obtain rfl : M = M' := by simpa [Shift.lookUp, Ne.symm hkm] using hM'
      exact .still hopen ⟨rfl, rfl⟩ rfl rfl
  | drained hm | drainCrash hm =>
    exact .still hopen (contexts_of_replaced hM hm hM' rfl rfl) rfl rfl
  | barred | ended =>
    obtain rfl := Option.some.inj hM'
    exact .still hopen ⟨rfl, rfl⟩ rfl rfl

theorem Making.passes (h : Making s p u) (hM' : u.shift.lookUp m (some M) = some M')
    (hw : p.warms m = 0) (hopen : M'.closed = false) : Passes m p u.place M M' := by
  cases h with
  | warmed =>
    obtain rfl := Option.some.inj hM'
    refine .still hopen ⟨rfl, rfl⟩ rfl (if_neg ?_)
    rintro rfl
    simp at hw
  | @made k plan factory built =>
    have hkm : m ≠ k := by
      rintro rfl
      simp at hw
    obtain rfl : M = M' := by simpa [Shift.lookUp, hkm] using hM'
    exact .still hopen ⟨rfl, rfl⟩ rfl rfl
  | _ =>
    obtain rfl := Option.some.inj hM'
    exact .still hopen ⟨rfl, rfl⟩ rfl rfl

theorem Beginning.passes {operation : Operation} (h : Beginning s operation p u)
    (hM' : u.shift.lookUp m (some M) = some M') (hopen : M'.closed = false) :
    Passes m p u.place M M' := by
  cases h with
  | @drops k =>
    have hkm : m ≠ k := by
      rintro rfl
      simp [Shift.lookUp] at hM'
    obtain rfl : M = M' := by simpa [Shift.lookUp, hkm] using hM'
    exact .still hopen ⟨rfl, rfl⟩ rfl rfl
  | _ =>
    obtain rfl := Option.some.inj hM'
    exact .still hopen ⟨rfl, rfl⟩ rfl rfl

/-- **A turn takes contexts from the front of those at hand and puts others at the back**, as long as
nobody comes to grief and the manager stays open. -/
theorem Turn.passes (h : Turn invoke s i mv p u) (hM : s.manager? m = some M)
    (hM' : u.shift.lookUp m (some M) = some M') (hw : p.warms m = 0)
    (hcalm : u.place.isGrieving = false) (hsound : M.poisoned = false)
    (hput : ∀ aim c, p = .returning m aim c → c.owner = some m →
      (M.stock.vacate.put c).contexts = M.stock.contexts ++ [c])
    (hopen : M'.closed = false) : Passes m p u.place M M' := by
  cases h with
  | opening h => exact h.passes hM hM' hcalm hopen
  | givingBack h => exact h.passes hM hM' hcalm hsound hput hopen
  | stopping h => exact h.passes hM hM' hopen
  | making h => exact h.passes hM' hw hopen
  | beginning h => exact h.passes hM' hopen
  | dealing h =>
    cases h <;>
      (obtain rfl := Option.some.inj hM'
       exact .still hopen ⟨rfl, rfl⟩ rfl rfl)
  | works | rousing =>
    obtain rfl := Option.some.inj hM'
    exact .still hopen ⟨rfl, rfl⟩ rfl rfl

/-! ## A manager that is being made -/

/-- How a caller comes to make a manager, or to have made one context more for it. -/
theorem Turn.of_warms {plan : Plan} {factory : Nat} {built : List (Context σ)}
    (h : Turn invoke s i mv p u) (hu : u.place = .warming m plan factory built) :
    (∃ before c, p = .warming m plan factory before ∧ built = before ++ [c]) ∨
      (∃ o, p = .finished o) ∧ m = s.nextManager ∧ built = [] := by
  have hserved (r : Request) (c : Context σ) : r.served c ≠ .warming m plan factory built :=
    r.served_induction c (by simp) (by simp)
  cases h with
  | making h =>
    cases h with
    | warmed =>
      cases hu
      exact .inl ⟨_, _, rfl, rfl⟩
    | _ => cases hu
  | beginning h =>
    cases h with
    | establishes =>
      cases hu
      exact .inr ⟨⟨_, rfl⟩, rfl, rfl⟩
    | _ => cases hu
  | opening h =>
    cases h with
    | lent | counted => exact absurd hu (hserved _ _)
    | _ => cases hu
  | givingBack h | stopping h | dealing h => cases h <;> cases hu
  | works | rousing => cases hu

/-- Whoever gives a context back still counts as its holder. -/
theorem held_of_returning {aim : Aim} {c : Context σ} (hp : s.placeOf i = .returning m aim c)
    (ho : c.owner = some m) : 0 < total (Place.holds m) s.places := by
  have hle := placeOf_le_total (s := s) (f := Place.holds m) rfl i
  rw [hp] at hle
  simp only [Place.holds, ho, if_true] at hle
  exact hle

/-- A manager is made by one caller. -/
theorem Registered.warms_other (hr : s.Registered) {plan : Plan} {factory : Nat}
    {built : List (Context σ)} (hj : s.placeOf j = .warming m plan factory built) (hij : i ≠ j) :
    (s.placeOf i).warms m = 0 := by
  have hat := mem_places_of_placeOf hj nofun
  have hone : 0 < total (Place.warms m) s.places := by
    have hle := placeOf_le_total (s := s) (f := Place.warms m) rfl j
    rw [hj] at hle
    simp only [Place.warms, if_true] at hle
    exact hle
  cases hi : s.places[i]? with
  | none => rw [placeOf, hi]; rfl
  | some q =>
    have hsum := add_le_total (Place.warms m) hij hi hat
    rw [(hr.unborn m hone).2.2.2] at hsum
    simp only [Place.warms, if_true] at hsum
    rw [placeOf_eq hi]
    exact Nat.le_zero.1 (Nat.le_of_succ_le_succ hsum)

/-! ## Runs -/

/-- The contexts that came to be at hand are those that were taken, followed by those at hand, as
long as the manager is open; while it is made, they are those that were built for it. -/
structure Queued (s : State σ) (m : ManagerId) (entered taken : List (Context σ)) : Prop where
  atHand : ∀ M, s.manager? m = some M → M.closed = false → entered = taken ++ M.stock.contexts
  built : ∀ i plan factory built, s.placeOf i = .warming m plan factory built →
    entered = built ∧ taken = []
  untaken : s.managers.length < m.number → entered = [] ∧ taken = []

theorem queued_initial (factories : List (Factory σ)) (m : ManagerId) :
    Queued (initial factories) m [] [] := by
  refine ⟨fun M hM => ?_, fun i plan factory built h => ?_, fun _ => ⟨rfl, rfl⟩⟩
  · obtain ⟨_ | n⟩ := m <;> simp [State.manager?, initial] at hM
  · cases h

theorem Queued.turn (h : Queued s m entered taken) (hs : Reachable invoke s) (hc : t.Calm)
    (hbook : Booked dropped s m) (hi : i ≤ s.places.length)
    (hu : Turn invoke s i mv (s.placeOf i) u) (hf : s.Follows t i u) :
    Queued t m (entered ++ (s.placeOf i).enters m u.place)
      (taken ++ (s.placeOf i).takes m u.place) := by
  have hr := hs.registered
  have hplace := hf.placeOf_self hi
  -- the caller has nothing to do with the manager as long as there is none and it makes none
  have hapart (hno : total (Place.claims m) s.places = 0) (hw : (s.placeOf i).warms m = 0) :
      (s.placeOf i).enters m u.place = [] ∧ (s.placeOf i).takes m u.place = [] :=
    Place.idle_of_claims (Nat.le_zero.1 (hno ▸ placeOf_le_total (by simp) i)) hw u.place
  refine ⟨fun M' hM' hopen => ?_, fun j plan factory built hj => ?_, fun hlate => ?_⟩
  · rw [hr.manager? hu hf] at hM'
    cases hM : s.manager? m with
    | some M =>
      rw [hM] at hM'
      have hq := hu.passes hM hM' (hr.warms_eq_zero hM i) (hplace ▸ hc.placeOf i)
        (hbook.balanced M (fun _ => false) hM).sound ?_ hopen
      · rw [h.atHand M hM hq.before, List.append_assoc, ← hq.contexts, List.append_assoc]
      · intro aim c hp ho
        exact (hs.bounded hM fun _ => false).contexts_put (held_of_returning hp ho) c
    | none =>
      rw [hM] at hM'
      obtain ⟨M, hsome⟩ | ⟨plan, factory, built, hp, hl, hend, hfirst⟩ :=
        hu.replaced (Shift.of_lookUp hM')
      · rw [hM] at hsome
        cases hsome
      · have hmark := hr.marked_placeOf i
        rw [hp] at hmark
        obtain rfl := Option.some.inj hfirst
        obtain ⟨rfl, rfl⟩ := h.built i plan factory built hp
        rw [hp, hend, contexts_firstManager (Nat.le_antisymm hmark.2.1 hl)]
        exact List.append_nil _
  · by_cases hij : j = i
    · subst hij
      obtain ⟨before, c, hp, rfl⟩ | ⟨⟨o, hp⟩, rfl, rfl⟩ := hu.of_warms (hplace.symm.trans hj)
      · obtain ⟨rfl, rfl⟩ := h.built j plan factory before hp
        rw [hp, ← hplace, hj]
        simp [Place.enters, Place.takes]
      · obtain ⟨rfl, rfl⟩ := h.untaken (Nat.lt_succ_self _)
        rw [hp]
        exact ⟨rfl, rfl⟩
    · obtain hsame | ⟨r, -, hr'⟩ := hf.placeOf_other hi hij
      · have hat := hsame.symm.trans hj
        have hone := placeOf_le_total (s := s) (f := Place.warms m) rfl j
        rw [hat] at hone
        simp only [Place.warms, if_true] at hone
        obtain ⟨hno, ht⟩ := hapart (hr.unborn m hone).2.2.1 (hr.warms_other hat (Ne.symm hij))
        rw [hno, ht, List.append_nil, List.append_nil]
        exact h.built j plan factory built hat
      · rw [hj] at hr'
        cases hr'
  · have hlate' := Nat.lt_of_le_of_lt hf.length_managers.1 hlate
    obtain ⟨hclaims, hwarms⟩ := hr.untaken m hlate'
    obtain ⟨hno, ht⟩ := hapart hclaims (Nat.le_zero.1 (hwarms ▸ placeOf_le_total rfl i))
    rw [hno, ht, List.append_nil, List.append_nil]
    exact h.untaken hlate'

theorem Queued.move (h : Queued s m entered taken) (hs : Reachable invoke s)
    (hm : s.move invoke mv = some t) (hc : t.Calm) (hbook : Booked dropped s m) :
    Queued t m (entered ++ s.enters t m mv) (taken ++ s.takes t m mv) := by
  obtain ⟨i, u, hi, hu, hf⟩ | hidle := move_turn hm
  · obtain ⟨henters, htakes⟩ := hu.history rfl (hf.placeOf_self hi) m
    rw [henters, htakes]
    exact h.turn hs hc hbook hi hu hf
  · have hnone : s.enters t m mv = [] ∧ s.takes t m mv = [] := by
      obtain ⟨nanos, rfl⟩ | ⟨text, rfl⟩ := hidle.move <;> exact ⟨rfl, rfl⟩
    rw [hnone.1, hnone.2, List.append_nil, List.append_nil]
    refine ⟨fun M hM => ?_, fun i plan factory built hi => ?_, fun hlate => ?_⟩
    · exact h.atHand M (by rw [← manager?_of_managers_eq hidle.managers, hM])
    · exact h.built i plan factory built (by rw [← hi, placeOf, placeOf, hidle.places])
    · exact h.untaken (hidle.managers ▸ hlate)

/-- **A calm run keeps the contexts at hand in the order in which they came.** -/
theorem CalmRun.queued (h : CalmRun invoke s moves t) (hs : Reachable invoke s)
    (hbook : Booked dropped s m) (hq : Queued s m entered taken) :
    Queued t m (entered ++ s.enteredOn invoke m moves) (taken ++ s.takenOn invoke m moves) := by
  induction h generalizing dropped entered taken with
  | nil hc => simpa only [enteredOn, takenOn, List.append_nil] using hq
  | @cons s t u mv moves hc hm hr ih =>
    have hlater := ih (hs.move hm) (hbook.move hs hm hr.calm_start)
      (hq.move hs hm hr.calm_start hbook)
    simpa only [enteredOn, takenOn, hm, List.append_assoc] using hlater

/-! ## Contexts that come back -/

/-- What comes of a context that its holder gives back to the pool that has lent it, in the move that
leads from `s`, where the pool is `M`, to `t`. -/
structure Returned (invoke : Invoke σ) (s : State σ) (m : ManagerId) (M : Manager σ)
    (config : PoolConfig) (i chosen : Nat) (aim : Aim) (c : Context σ) (t : State σ) : Prop where
  enters_iff : s.enters t m (.run i chosen) = [c] ↔
    M.closed = false ∧ M.stock.contexts.length < config.maxIdle
  kept : M.closed = false → M.stock.contexts.length < config.maxIdle →
    t.placeOf i = .finished (aim.verdict (.ok ())) ∧
      ∃ M', t.manager? m = some M' ∧ M'.stock.contexts = M.stock.contexts ++ [c]
  destroyed : ¬(M.closed = false ∧ M.stock.contexts.length < config.maxIdle) →
    s.enters t m (.run i chosen) = [] ∧
      (∃ M', t.manager? m = some M' ∧ M'.stock.contexts = M.stock.contexts) ∧
        Comes invoke t i (aim.verdict (.ok ())) 1 ∧ ∀ moves u o, CalmRun invoke t moves u →
          t.outcomeOn invoke i moves = some o → c.id ∈ t.retiredOn invoke m moves ∧ c.id ∈ u.ended

theorem Quiet.returned (hs : Quiet invoke s) (hM : s.manager? m = some M)
    (hconfig : M.stock.config? = some config) {chosen : Nat} {aim : Aim} {c : Context σ}
    (hp : s.placeOf i = .returning m aim c) (ho : c.owner = some m)
    (hm : s.move invoke (.run i chosen) = some t) (hc : t.Calm) :
    Returned invoke s m M config i chosen aim c t := by
  have hr := hs.reachable.registered
  have hintact := (hs.intact hM).move hm hc
  have hkeeps : M.keeps = true ↔ M.closed = false ∧ M.stock.contexts.length < config.maxIdle := by
    rw [← Stock.keeps_iff hconfig]
    simp [Manager.keeps]
  obtain ⟨-, u, -, hu, hf, hplace⟩ | ⟨hturn, -⟩ := move_cases hm i
  · have hman := hr.manager? hu hf m
    have henters := (hu.history rfl hplace m).1
    rw [hp] at hu henters
    obtain ⟨_, -, h⟩ := hu.of_returning
    cases h with
    | refused _ hne => exact absurd ho hne
    | refusedEnd _ hne => exact absurd ho hne
    | barred hM₀ _ hbad =>
      rw [(hs.intact hM).sound _ hM₀] at hbad
      cases hbad
    | keptCrash =>
      have hgrief := hplace ▸ hc.placeOf i
      cases hgrief
    | kept hM₀ _ _ hk =>
      obtain rfl := Option.some.inj (hM.symm.trans hM₀)
      have hyes := hkeeps.1 hk
      have hone : s.enters t m (.run i chosen) = [c] := henters.trans (if_pos ⟨rfl, ho⟩)
      have hM' : t.manager? m = some (M.withStock (M.stock.vacate.put c)) := by
        rw [hman, Shift.lookUp, if_pos rfl]
      have hput := (hs.reachable.bounded hM fun _ => false).contexts_put (held_of_returning hp ho) c
      exact ⟨⟨fun _ => hyes, fun _ => hone⟩, fun _ _ => ⟨hplace, _, hM', hput⟩,
        fun hno => absurd hyes hno⟩
    | turnedAway hM₀ _ _ hk =>
      obtain rfl := Option.some.inj (hM.symm.trans hM₀)
      have hno : ¬(M.closed = false ∧ M.stock.contexts.length < config.maxIdle) := by
        rw [← hkeeps, hk]
        decide
      have hnone : s.enters t m (.run i chosen) = [] := henters.trans rfl
      have hM' : t.manager? m = some (M.withStock M.stock.vacate) := by
        rw [hman, Shift.lookUp, if_pos rfl]
      refine ⟨⟨fun h => ?_, fun h => absurd h hno⟩, fun hopen hroom => absurd ⟨hopen, hroom⟩ hno,
        fun _ => ⟨hnone, ⟨_, hM', M.stock.contexts_vacate⟩, ?_, fun moves v o hv hout => ?_⟩⟩
      · rw [hnone] at h
        cases h
      · exact hintact.comes hM' (by rw [hplace]; exact if_pos rfl)
      · have hmem := retired_of_evicting hv.run hplace hout
        obtain ⟨new, hended, hsub⟩ := retiredOn_sublist hv.run m
        exact ⟨hmem, hended ▸ List.mem_append_left _ (hsub.subset hmem)⟩
  · simp [Move.isTurnOf] at hturn

/-! ## Shutdowns -/

/-- The contexts that end in a move to `t`, the first one first. -/
def endsIn (s t : State σ) : List ContextId :=
  (t.ended.take (t.ended.length - s.ended.length)).reverse

/-- The contexts that end on a run in the turns of the caller until it comes to an outcome, the first
one first. -/
def endedBy (invoke : Invoke σ) (i : Nat) (s : State σ) : List (Move σ) → List ContextId
  | [] => []
  | mv :: moves =>
    match s.outcome? i, s.move invoke mv with
    | none, some t => (if mv.isTurnOf i then s.endsIn t else []) ++ t.endedBy invoke i moves
    | _, _ => []

theorem Follows.endsIn_eq (h : s.Follows t i u) : s.endsIn t = u.gone.map Context.id := by
  rw [endsIn, h.ended, List.length_append, Nat.add_sub_cancel, List.take_left, List.reverse_reverse]

theorem endedBy_cons (h : s.outcome? i = none) (hm : s.move invoke mv = some t)
    (moves : List (Move σ)) : s.endedBy invoke i (mv :: moves) =
      (if mv.isTurnOf i then s.endsIn t else []) ++ t.endedBy invoke i moves := by
  rw [endedBy, h, hm]

theorem endedBy_of_outcome? (h : s.outcome? i = some o) (moves : List (Move σ)) :
    s.endedBy invoke i moves = [] := by
  cases moves with
  | nil => rfl
  | cons mv moves => rw [endedBy, h]

theorem mem_ended_of_endedBy (h : s.run invoke moves = some t) (hs : Reachable invoke s)
    {id : ContextId} (hid : id ∈ s.endedBy invoke i moves) : id ∈ t.ended := by
  induction moves generalizing s with
  | nil => cases hid
  | cons mv moves ih =>
    obtain ⟨t₁, hm, h⟩ := run_cons h
    cases ho : s.outcome? i with
    | some o => rw [endedBy_of_outcome? ho] at hid; cases hid
    | none =>
      rw [endedBy_cons ho hm] at hid
      rcases List.mem_append.1 hid with hid | hid
      · refine ended_of_run h (hs.move hm) ?_
        split at hid
        · exact List.mem_of_mem_take (List.mem_reverse.1 hid)
        · cases hid
      · exact ih h (hs.move hm) hid

/-- **A shutdown that has begun ends the contexts in its hands one after the other**: until its outcome
those that it has ended and those that it still has are the ones that it had, and then it has ended
all of them. -/
theorem CalmRun.drains {active : Nat} {first : Bool} {rest : List (Context σ)}
    (h : CalmRun invoke s moves t) (hj : s.placeOf j = .draining m active first rest) :
    (s.outcomeOn invoke j moves = none → ∃ left, t.placeOf j = .draining m active first left ∧
      rest.map Context.id = s.endedBy invoke j moves ++ left.map Context.id) ∧
    ∀ o, s.outcomeOn invoke j moves = some o →
      s.endedBy invoke j moves = rest.map Context.id := by
  have hnone : s.outcome? j = none := outcome?_eq_none hj (by simp)
  induction h generalizing rest with
  | nil hc =>
    rw [outcomeOn, hnone]
    exact ⟨fun _ => ⟨rest, hj, rfl⟩, fun o ho => (by cases ho)⟩
  | @cons s t u mv moves hc hm hr ih =>
    rw [outcomeOn_cons hnone hm, endedBy_cons hnone hm]
    obtain ⟨hturn, v, -, hv, hf, hplace⟩ | ⟨hturn, hplace | ⟨r, hr', -⟩⟩ := move_cases hm j
    · rw [hturn, if_pos rfl, hf.endsIn_eq]
      rw [hj] at hv
      obtain ⟨chosen, rfl, hstop⟩ := hv.of_draining
      cases hstop with
      | drained =>
        obtain ⟨hleft, hall⟩ := ih hplace (outcome?_eq_none hplace (by simp))
        refine ⟨fun ho => ?_, fun o ho => ?_⟩
        · obtain ⟨left, hat, hids⟩ := hleft ho
          exact ⟨left, hat, congrArg (_ :: ·) hids⟩
        · exact congrArg (_ :: ·) (hall o ho)
      | drainCrash =>
        have hgrief := hplace ▸ hr.calm_start.placeOf j
        cases hgrief
      | @ended _ _ _ _ o =>
        have hlen := Nat.lt_of_lt_of_le
          (List.getElem?_eq_some_iff.1 (mem_places_of_placeOf hj (by simp))).1 (length_places_le hm)
        have hout := outcome?_of_placeOf hplace hlen
        rw [outcomeOn_of_outcome? hout, endedBy_of_outcome? hout]
        exact ⟨fun ho => (by cases ho), fun _ _ => rfl⟩
    · rw [hturn]
      have hj' := hplace.trans hj
      exact ih hj' (outcome?_eq_none hj' (by simp))
    · rw [hj] at hr'
      cases hr'

/-- What comes of the contexts at hand when the caller `j` has had the lock to shut the manager down,
in a move to `s₁` from a state where the manager was `M`. -/
structure Drained (invoke : Invoke σ) (m : ManagerId) (j : Nat) (M : Manager σ) (s₁ : State σ)
    (moves : List (Move σ)) (t : State σ) : Prop where
  comes : Comes invoke s₁ j (stopOutcome M.stock.active) (M.stock.contexts.length + 1)
  /-- Until it has come to its outcome it has ended those in front. -/
  front : s₁.outcomeOn invoke j moves = none → ∃ left first,
    t.placeOf j = .draining m M.stock.active first left ∧
      M.stock.contexts.map Context.id = s₁.endedBy invoke j moves ++ left.map Context.id
  all : ∀ o, s₁.outcomeOn invoke j moves = some o →
    s₁.endedBy invoke j moves = M.stock.contexts.map Context.id ∧
      ∀ c ∈ M.stock.contexts, t.ended.count c.id = 1

theorem Quiet.drained (hs : Quiet invoke s) (hM : s.manager? m = some M)
    (hj : s.placeOf j = .stopping m) {chosen : Nat} {s₁ : State σ}
    (hm : s.move invoke (.run j chosen) = some s₁) (hr : CalmRun invoke s₁ moves t) :
    Drained invoke m j M s₁ moves t := by
  obtain ⟨hintact, hM₁, hplace⟩ := hs.reachable.shut_of_stopping hj hM
    ((hs.intact hM).sound M hM) hm hr.calm_start
  obtain ⟨hfront, hall⟩ := hr.drains hplace
  refine ⟨hintact.comes hM₁ (by rw [hplace]; exact if_pos rfl), fun ho => ?_, fun o ho => ?_⟩
  · obtain ⟨left, hat, hids⟩ := hfront ho
    exact ⟨left, _, hat, hids⟩
  · have hids := hall o ho
    refine ⟨hids, fun c hc => ?_⟩
    have hmem : c.id ∈ t.ended := mem_ended_of_endedBy hr.run hintact.reachable
      (hids ▸ List.mem_map_of_mem hc)
    have honce := List.nodup_iff_count.1 (hintact.reachable.run hr.run).nodup_ended c.id
    exact Nat.le_antisymm honce (List.count_pos_iff.2 hmem)

/-! ## The pool at any point of a run -/

/-- What is known of the order of the contexts of a pool after a run from the start, when it is `M`. -/
structure FirstInFirstOut (invoke : Invoke σ) (factories : List (Factory σ))
    (moves : List (Move σ)) (s : State σ) (m : ManagerId) (M : Manager σ) (config : PoolConfig) :
    Prop where
  queue : M.closed = false → (initial factories).enteredOn invoke m moves =
    (initial factories).takenOn invoke m moves ++ M.stock.contexts
  returned : ∀ i aim c chosen t, s.placeOf i = .returning m aim c → c.owner = some m →
    s.move invoke (.run i chosen) = some t → t.Calm →
      Returned invoke s m M config i chosen aim c t
  shutDown : ∀ j chosen s₁ after t, s.placeOf j = .stopping m →
    s.move invoke (.run j chosen) = some s₁ → CalmRun invoke s₁ after t →
      Drained invoke m j M s₁ after t

/-- **Idle contexts are used again first in, first out**, on every run on which nobody comes to
grief: up to its shutdown a pool lends its contexts in the order in which they were built at first
and given back later.  What it has no room for, or gets after its shutdown, it destroys, and so it
does with what is at hand in its shutdown, from the front to the back. -/
theorem CalmRun.first_in_first_out {factories : List (Factory σ)}
    (h : CalmRun invoke (initial factories) moves s) (hM : s.manager? m = some M)
    (hconfig : M.stock.config? = some config) :
    FirstInFirstOut invoke factories moves s m M config := by
  have hs : Quiet invoke s := ⟨factories, moves, h⟩
  have hq := h.queued (reachable_initial invoke factories) (booked_initial factories m)
    (queued_initial factories m)
  exact ⟨hq.atHand M hM, fun _ _ _ _ _ hp ho hm hc => hs.returned hM hconfig hp ho hm hc,
    fun _ _ _ _ _ hj hm hr => hs.drained hM hj hm hr⟩

/-- The hypotheses are satisfiable: a pool that was made with two contexts has lent both and kept the
one that came back first; the other one comes back, for which there is no room, and another caller is
about to shut the pool down. -/
theorem first_in_first_out_one_kept : ∃ (moves : List (Move Unit)) (s : State Unit)
    (M : Manager Unit) (c : Context Unit), CalmRun inert (initial [plain]) moves s ∧
      s.manager? ⟨1⟩ = some M ∧ M.stock.config? = some ⟨2, 2, 1⟩ ∧
      ((initial [plain]).enteredOn inert ⟨1⟩ moves).map Context.id = [⟨1⟩, ⟨2⟩, ⟨1⟩] ∧
      ((initial [plain]).takenOn inert ⟨1⟩ moves).map Context.id = [⟨1⟩, ⟨2⟩] ∧
      s.placeOf 2 = .returning ⟨1⟩ .close c ∧ c.owner = some ⟨1⟩ ∧ s.placeOf 3 = .stopping ⟨1⟩ ∧
      FirstInFirstOut inert [plain] moves s ⟨1⟩ M ⟨2, 2, 1⟩ := by
  have h : CalmRun inert (initial [plain])
      [.begin 0 (.establish 0 (.pool ⟨2, 2, 1⟩)), .run 0 0, .run 0 0, .run 0 0,
        .begin 1 (.acquire ⟨1⟩ .hold none), .run 1 0, .begin 2 (.acquire ⟨1⟩ .hold none), .run 2 0,
        .handle 1 (.close ⟨1⟩), .run 1 0, .handle 2 (.close ⟨1⟩), .begin 3 (.shutDown ⟨1⟩)] _ :=
    .cons (by decide) rfl (.cons (by decide) rfl (.cons (by decide) rfl (.cons (by decide) rfl
      (.cons (by decide) rfl (.cons (by decide) rfl (.cons (by decide) rfl (.cons (by decide) rfl
        (.cons (by decide) rfl (.cons (by decide) rfl (.cons (by decide) rfl (.cons (by decide) rfl
          (.nil (by decide)))))))))))))
  exact ⟨_, _, _, _, h, rfl, rfl, rfl, rfl, rfl, rfl, rfl, h.first_in_first_out rfl rfl⟩

end State
end Lending
end HookPool
