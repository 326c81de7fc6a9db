/-
# What a turn means for one manager

Seen from one manager, the turns of all callers are few: an opener comes, is served or leaves, a
context comes back, one is counted.  `Entry` lists them, each with what it does to the manager and
to the tally of those who have to do with it.  An entry knows whether somebody came to grief,
whether the manager was locked, and how many of its contexts were let go of without being given
back.

Main statements: every move is an entry of every manager that is there before and after it
(`ledger_step`), and a manager that is made has nobody yet to do with it (`ledger_start`).  An
invariant of a manager and its tally is proved for all runs by going through the entries
(`ledger_induction`).
-/
import HookPool.Proofs.Lending.Registry

namespace HookPool
namespace Lending

variable {σ : Type}

/-- What the caller asks of a manager. -/
def Place.request? : Place σ → Option Request
  | .asking r | .asleep r | .building r | .grown r _ | .abandoned r _ => some r
  | _ => none

/-- The contexts of the manager that the caller holds without a lease. -/
@[simp] def Place.loose (k : ManagerId) : Place σ → Nat
  | .holding .direct c => if c.owner = some k then 1 else 0
  | _ => 0

namespace State

/-- The move needs the lock of the manager, or the whole manager. -/
def locks (s : State σ) (k : ManagerId) : Move σ → Bool
  | .run caller _ =>
    match s.placeOf caller with
    | .asking r | .abandoned r _ => r.manager = k
    | .returning m _ c => m = k && c.owner = some k
    | .stopping m => m = k
    | _ => false
  | .begin _ (.dropManager m) => m = k
  | _ => false

/-- How many contexts of the manager their holder lets go of in the move without giving them
back. -/
def drops (s : State σ) (k : ManagerId) : Move σ → Nat
  | .handle caller .leave | .handle caller (.unwind _) => (s.placeOf caller).loose k
  | _ => 0

/-- Whoever lets go of a context of a manager has to do with it. -/
theorem drops_le (s : State σ) (k : ManagerId) (mv : Move σ) :
    s.drops k mv ≤ total (Place.claims k) s.places := by
  have hloose : ∀ i, (s.placeOf i).loose k ≤ total (Place.claims k) s.places := by
    intro i
    refine Nat.le_trans ?_ (placeOf_le_total (by simp) i)
    cases s.placeOf i with
    | holding tenure c => cases tenure <;> simp
    | _ => exact Nat.zero_le _
  cases mv with
  | handle caller handling =>
    cases handling with
    | leave => exact hloose caller
    | unwind payload => exact hloose caller
    | _ => exact Nat.zero_le _
  | _ => exact Nat.zero_le _

end State

/-- What a move means for a manager and its tally.  `panics` says that a caller comes to grief in
it, `locked` that it needs the manager's lock, and the number is that of the manager's contexts that
are let go of.  An opener that has the lock heeds one signal at the most, `a`. -/
inductive Entry (panics locked : Prop) :
    Nat → Manager σ → Tally → Manager σ → Tally → Prop where
  /-- The move has nothing to do with the manager. -/
  | still {M : Manager σ} {n n' : Tally} (h : n.Flow 0 {} {} n') : Entry panics locked 0 M n M n'
  | came {M : Manager σ} {n n' : Tally} (h : n.Flow 0 {} { waiting := 1 } n') :
    Entry panics locked 0 M n M n'
  /-- An opener is told that it gets nothing. -/
  | went {M : Manager σ} {n n' : Tally} {a : Nat} (hl : locked)
    (hM : M.poisoned = true ∨ M.closed = true ∨
      M.poisoned = false ∧ M.closed = false ∧ M.stock.offer = .full)
    (ha : a ≤ 1) (h : n.Flow 0 { waiting := 1, heeding := a } {} n') :
    Entry panics locked 0 M n M n'
  | fellAsleep {M : Manager σ} {n n' : Tally} {a : Nat} (hl : locked) (hp : M.poisoned = false)
    (hc : M.closed = false) (ho : M.stock.offer = .full)
    (ha : a ≤ 1)
    (h : n.Flow 0 { waiting := 1, heeding := a } { waiting := 1, sleeping := 1 } n') :
    Entry panics locked 0 M n M n'
  | awoke {M : Manager σ} {n n' : Tally}
    (h : n.Flow 0 { waiting := 1, sleeping := 1 } { waiting := 1 } n') :
    Entry panics locked 0 M n M n'
  | lent {M : Manager σ} {n n' : Tally} {a : Nat} {c : Context σ} {rest : Stock σ} (hl : locked)
    (hp : M.poisoned = false) (hc : M.closed = false) (ho : M.stock.offer = .lent c rest)
    (ha : a ≤ 1) (h : n.Flow 0 { waiting := 1, heeding := a } { held := 1 } n') :
    Entry panics locked 0 M n (M.withStock rest) n'
  | lentCrash {M : Manager σ} {n n' : Tally} {a : Nat} {c : Context σ} {rest : Stock σ}
    (hl : locked) (hp : M.poisoned = false) (hc : M.closed = false)
    (ho : M.stock.offer = .lent c rest) (hb : panics) (ha : a ≤ 1)
    (h : n.Flow 0 { waiting := 1, heeding := a } {} n') :
    Entry panics locked 0 M n (M.withStock rest).poison n'
  | reserved {M : Manager σ} {n n' : Tally} {a : Nat} {rest : Stock σ} (hl : locked)
    (hp : M.poisoned = false) (hc : M.closed = false) (ho : M.stock.offer = .reserved rest)
    (ha : a ≤ 1) (h : n.Flow 0 { waiting := 1, heeding := a } { building := 1 } n') :
    Entry panics locked 0 M n (M.withStock rest) n'
  /-- The factory, or the sink, takes a builder along; its slot is lost. -/
  | buildCrash {M : Manager σ} {n n' : Tally} (hb : panics)
    (h : n.Flow 0 { building := 1 } {} n') : Entry panics locked 0 M n M n'
  | counted {M : Manager σ} {n n' : Tally} (h : n.Flow 0 { building := 1 } { held := 1 } n') :
    Entry panics locked 0 M n M.countCreated n'
  | countedCrash {M : Manager σ} {n n' : Tally} (hb : panics)
    (h : n.Flow 0 { building := 1 } {} n') : Entry panics locked 0 M n M.countCreated n'
  | gaveUp {M : Manager σ} {n n' : Tally} (hl : locked)
    (h : n.Flow 1 { building := 1 } {} n') :
    Entry panics locked 0 M n (M.withStock M.stock.vacate) n'
  /-- A holder lets go of a context. -/
  | lost {M : Manager σ} {n n' : Tally} (h : n.Flow 0 { held := 1 } {} n') :
    Entry panics locked 1 M n M n'
  /-- A context ends because somebody came to grief, now or before. -/
  | wasted {M : Manager σ} {n n' : Tally} (hb : panics ∨ M.poisoned = true)
    (h : n.Flow 0 { held := 1 } {} n') : Entry panics locked 0 M n M n'
  | kept {M : Manager σ} {n n' : Tally} {c : Context σ} (hl : locked) (hp : M.poisoned = false)
    (hk : M.keeps = true) (h : n.Flow 1 { held := 1 } {} n') :
    Entry panics locked 0 M n (M.withStock (M.stock.vacate.put c)) n'
  | keptCrash {M : Manager σ} {n n' : Tally} (hl : locked) (hp : M.poisoned = false)
    (hk : M.keeps = true) (hb : panics) (h : n.Flow 0 { held := 1 } {} n') :
    Entry panics locked 0 M n (M.withStock M.stock.vacate).poison n'
  | turnedAway {M : Manager σ} {n n' : Tally} (hl : locked) (hp : M.poisoned = false)
    (hk : M.keeps = false)
    (h : n.Flow (if M.stock.isPool then 1 else 0) { held := 1 } { leaving := 1 } n') :
    Entry panics locked 0 M n (M.withStock M.stock.vacate) n'
  | discarded {M : Manager σ} {n n' : Tally} (h : n.Flow 0 { leaving := 1 } {} n') :
    Entry panics locked 0 M n (M.countDestroyed 1) n'
  | drainCrash {M : Manager σ} {n n' : Tally} {rest : Nat} (hb : panics)
    (h : n.Flow 0 { leaving := rest + 1 } {} n') : Entry panics locked 0 M n (M.countDestroyed 1) n'
  | shut {M : Manager σ} {n n' : Tally} (hl : locked) (hp : M.poisoned = false)
    (h : n.Flow n.sleeping {} { leaving := M.stock.contexts.length } n') :
    Entry panics locked 0 M n M.shut n'

/-- A turn that changes nothing in a tally leaves it as it is. -/
theorem Entry.of_eq {M : Manager σ} {n n' : Tally} {panics locked : Prop} {w : Nat}
    {out into : Tally} (h : n.Flow w out into n') (hw : w = 0) (he : out = into) :
    Entry panics locked 0 M n M n' := by
  subst hw he
  obtain ⟨h1, h2, h3, h4, h5, h6⟩ := h
  exact .still ⟨by omega, by omega, by omega, by omega, by omega, by omega⟩

namespace State

variable {invoke : Invoke σ} {s t : State σ} {mv : Move σ} {i chosen : Nat} {p : Place σ}
  {u : Upshot σ} {k m : ManagerId} {M M' : Manager σ} {n n' : Tally} {panics locked : Prop}
  {b : Bool}

/-! ## Entries of turns -/

theorem tally_served {r : Request} {c : Context σ} (h : c.owner = some r.manager)
    (k : ManagerId) (b : Bool) :
    (r.served c).tally k b = if r.manager = k then { held := 1 } else {} := by
  unfold Request.served
  split <;> split <;> simp_all [Place.tally]

/-- **What the turn of an opener means for its manager.** -/
theorem Opening.entry_own (hr : s.Registered) (h : Opening s chosen p u) (hmark : p.Marked)
    (hM : s.manager? k = some M) (hM' : u.shift.lookUp k (some M) = some M')
    (hflow : n.Flow (u.wake.count k n.sleeping) (p.tally k b) (u.place.tally k false) n')
    (hb : u.place.isGrieving = true → panics)
    (hl : ∀ r, p = .asking r ∨ (∃ e, p = .abandoned r e) → locked)
    (hk : ∀ r, p.request? = some r → r.manager = k) : Entry panics locked 0 M n M' n' := by
  have hsame : ∀ {M₀ : Manager σ}, s.manager? k = some M₀ → M₀ = M := fun h =>
    Option.some.inj (h.symm.trans hM)
  have ha : (if b = true then 1 else 0) ≤ 1 := by split <;> decide
  cases h with
  | @barred r M₀ hm hp =>
    obtain rfl := hk r rfl
    obtain rfl := hsame hm
    obtain rfl := Option.some.inj hM'
    exact .went (hl r (.inl rfl)) (.inl hp) ha (by simpa [Place.tally] using hflow)
  | @shutOut r M₀ hm hp hc =>
    obtain rfl := hk r rfl
    obtain rfl := hsame hm
    obtain rfl := Option.some.inj hM'
    exact .went (hl r (.inl rfl)) (.inr (.inl hc)) ha (by simpa [Place.tally] using hflow)
  | @timedOut r M₀ d hm hp hc ho hd ht =>
    obtain rfl := hk r rfl
    obtain rfl := hsame hm
    obtain rfl := Option.some.inj hM'
    exact .went (hl r (.inl rfl)) (.inr (.inr ⟨hp, hc, ho⟩)) ha
      (by simpa [Place.tally] using hflow)
  | @fellAsleep r M₀ hm hp hc ho hd =>
    obtain rfl := hk r rfl
    obtain rfl := hsame hm
    obtain rfl := Option.some.inj hM'
    exact .fellAsleep (hl r (.inl rfl)) hp hc ho ha (by simpa [Place.tally] using hflow)
  | @lent r M₀ c rest hm hp hc ho =>
    obtain rfl := hk r rfl
    obtain rfl := hsame hm
    obtain rfl : _ = M' := by simpa [Shift.lookUp] using hM'
    simp only [tally_served (hr.owner_of_lent hm ho)] at hflow
    exact .lent (hl r (.inl rfl)) hp hc ho ha (by simpa [Place.tally] using hflow)
  | @lentCrash r M₀ c rest hm hp hc ho =>
    obtain rfl := hk r rfl
    obtain rfl := hsame hm
    obtain rfl : _ = M' := by simpa [Shift.lookUp] using hM'
    exact .lentCrash (hl r (.inl rfl)) hp hc ho (hb rfl) ha
      (by simpa [Place.tally] using hflow)
  | @reserved r M₀ rest hm hp hc ho =>
    obtain rfl := hk r rfl
    obtain rfl := hsame hm
    obtain rfl : _ = M' := by simpa [Shift.lookUp] using hM'
    exact .reserved (hl r (.inl rfl)) hp hc ho ha (by simpa [Place.tally] using hflow)
  | @built r M₀ t c hm ht hi =>
    obtain rfl := Option.some.inj hM'
    exact .of_eq hflow rfl rfl
  | @buildFailed r M₀ t e hm ht =>
    obtain rfl := Option.some.inj hM'
    exact .of_eq hflow rfl rfl
  | @buildFailedCrash r M₀ t e hm ht =>
    obtain rfl := hk r rfl
    obtain rfl := Option.some.inj hM'
    exact .buildCrash (hb rfl) (by simpa [Place.tally] using hflow)
  | @buildCrash r M₀ t payload cs hm ht hs =>
    obtain rfl := hk r rfl
    obtain rfl := Option.some.inj hM'
    exact .buildCrash (hb rfl) (by simpa [Place.tally] using hflow)
  | @counted r M₀ c hm =>
    obtain rfl := hk r rfl
    obtain rfl := hsame hm
    obtain rfl : _ = M' := by simpa [Shift.lookUp] using hM'
    simp only [tally_served (show c.owner = some r.manager from hmark)] at hflow
    exact .counted (by simpa [Place.tally] using hflow)
  | @countedCrash r M₀ c hm =>
    obtain rfl := hk r rfl
    obtain rfl := hsame hm
    obtain rfl : _ = M' := by simpa [Shift.lookUp] using hM'
    exact .countedCrash (hb rfl) (by simpa [Place.tally] using hflow)
  | @gaveUp r M₀ e hm =>
    obtain rfl := hk r rfl
    obtain rfl := hsame hm
    obtain rfl : _ = M' := by simpa [Shift.lookUp] using hM'
    exact .gaveUp (hl r (.inr ⟨e, rfl⟩)) (by simpa [Place.tally] using hflow)

/-- The turn of an opener means nothing for another manager than its own. -/
theorem Opening.apart (hr : s.Registered) (h : Opening s chosen p u) (hmark : p.Marked)
    (hk : ∀ r, p.request? = some r → r.manager ≠ k) :
    u.shift.lookUp k (some M) = some M ∧ u.wake.count k n.sleeping = 0 ∧
      p.tally k b = u.place.tally k false := by
  cases h with
  | @lent r M₀ c rest hm hp hc ho =>
    have hne := hk r rfl
    rw [tally_served (hr.owner_of_lent hm ho)]
    simp [Shift.lookUp, Place.tally, hne, hne.symm]
  | @counted r M₀ c hm =>
    have hne := hk r rfl
    rw [tally_served hmark]
    simp [Shift.lookUp, Place.tally, hne, hne.symm]
  | _ =>
    have hne := hk _ rfl
    simp [Shift.lookUp, Place.tally, hne, hne.symm]

/-- **What the turn of a caller that gives a context back means for a manager.** -/
theorem GivingBack.entry (h : GivingBack invoke s chosen p u) (hmark : p.Marked)
    (hM : s.manager? k = some M) (hM' : u.shift.lookUp k (some M) = some M')
    (hflow : n.Flow (u.wake.count k n.sleeping) (p.tally k b) (u.place.tally k false) n')
    (hb : u.place.isGrieving = true → panics)
    (hl : ∀ aim c, p = .returning k aim c → c.owner = some k → locked) :
    Entry panics locked 0 M n M' n' := by
  have hsame : ∀ {M₀ : Manager σ}, s.manager? k = some M₀ → M₀ = M := fun h =>
    Option.some.inj (h.symm.trans hM)
  cases h with
  | called hreply =>
    obtain rfl := Option.some.inj hM'
    exact .of_eq hflow rfl rfl
  | undefined hreply =>
    obtain rfl := Option.some.inj hM'
    exact .of_eq hflow rfl rfl
  | undefinedCrash hreply =>
    obtain rfl := Option.some.inj hM'
    exact .of_eq hflow rfl rfl
  | refused hm ho ha =>
    obtain rfl := Option.some.inj hM'
    exact .of_eq hflow rfl rfl
  | @refusedEnd m M₀ aim c o hm ho h =>
    obtain rfl := Option.some.inj hM'
    by_cases hk : c.owner = some k
    · refine .wasted (.inl (hb ?_)) (by simpa [Place.tally, hk] using hflow)
      -- a lease that goes out of scope is never refused
      obtain rfl | ⟨rfl | ⟨payload, rfl⟩, rfl⟩ := h
      · rfl
      · exact absurd (hmark.resolve_left (by simp)) ho
      · rfl
    · exact .of_eq hflow rfl (by simp [Place.tally, hk])
  | @barred m M₀ aim c o hm ho hp h =>
    obtain rfl := Option.some.inj hM'
    by_cases hk : m = k
    · subst hk
      obtain rfl := hsame hm
      exact .wasted (.inr hp) (by simpa [Place.tally, ho] using hflow)
    · exact .of_eq hflow rfl (by simp [Place.tally, ho, hk])
  | @kept m M₀ aim c hm ho hp hkeep =>
    by_cases hk : m = k
    · subst hk
      obtain rfl := hsame hm
      obtain rfl : _ = M' := by simpa [Shift.lookUp] using hM'
      exact .kept (hl aim c rfl ho) hp hkeep (by simpa [Place.tally, ho] using hflow)
    · obtain rfl : M = M' := by simpa [Shift.lookUp, Ne.symm hk] using hM'
      exact .of_eq hflow (by simp [hk]) (by simp [Place.tally, ho, hk])
  | @keptCrash m M₀ aim c hm ho hp hkeep =>
    by_cases hk : m = k
    · subst hk
      obtain rfl := hsame hm
      obtain rfl : _ = M' := by simpa [Shift.lookUp] using hM'
      exact .keptCrash (hl aim c rfl ho) hp hkeep (hb rfl)
        (by simpa [Place.tally, ho] using hflow)
    · obtain rfl : M = M' := by simpa [Shift.lookUp, Ne.symm hk] using hM'
      exact .of_eq hflow rfl (by simp [Place.tally, ho, hk])
  | @turnedAway m M₀ aim c hm ho hp hkeep =>
    by_cases hk : m = k
    · subst hk
      obtain rfl := hsame hm
      obtain rfl : _ = M' := by simpa [Shift.lookUp] using hM'
      refine .turnedAway (hl aim c rfl ho) hp hkeep ?_
      split at hflow <;> simp_all [Place.tally]
    · obtain rfl : M = M' := by simpa [Shift.lookUp, Ne.symm hk] using hM'
      refine .of_eq hflow ?_ (by simp [Place.tally, ho, hk])
      split <;> simp [hk]
  | @evicted m M₀ aim c o hm h =>
    by_cases hk : m = k
    · subst hk
      obtain rfl := hsame hm
      obtain rfl : _ = M' := by simpa [Shift.lookUp] using hM'
      exact .discarded (by simpa [Place.tally] using hflow)
    · obtain rfl : M = M' := by simpa [Shift.lookUp, Ne.symm hk] using hM'
      exact .of_eq hflow rfl (by simp [Place.tally, hk])

/-- **What the turn of a caller that shuts a manager down means for a manager.** -/
theorem Stopping.entry (h : Stopping s p u) (hM : s.manager? k = some M)
    (hM' : u.shift.lookUp k (some M) = some M')
    (hflow : n.Flow (u.wake.count k n.sleeping) (p.tally k b) (u.place.tally k false) n')
    (hb : u.place.isGrieving = true → panics) (hl : p = .stopping k → locked) :
    Entry panics locked 0 M n M' n' := by
  have hsame : ∀ {M₀ : Manager σ}, s.manager? k = some M₀ → M₀ = M := fun h =>
    Option.some.inj (h.symm.trans hM)
  cases h with
  | barred hm hp =>
    obtain rfl := Option.some.inj hM'
    exact .of_eq hflow rfl rfl
  | @stopped m M₀ hm hp =>
    by_cases hk : m = k
    · subst hk
      obtain rfl := hsame hm
      obtain rfl : _ = M' := by simpa [Shift.lookUp] using hM'
      exact .shut (hl rfl) hp (by simpa [Place.tally] using hflow)
    · obtain rfl : M = M' := by simpa [Shift.lookUp, Ne.symm hk] using hM'
      exact .of_eq hflow (by simp [hk]) (by simp [Place.tally, hk])
  | @drained m M₀ active first c rest hm =>
    by_cases hk : m = k
    · subst hk
      obtain rfl := hsame hm
      obtain rfl : _ = M' := by simpa [Shift.lookUp] using hM'
      obtain ⟨h1, h2, h3, h4, h5, h6⟩ := hflow
      refine .discarded ⟨h1, h2, h3, h4, h5, ?_⟩
      simp [Place.tally] at h6 ⊢
      omega
    · obtain rfl : M = M' := by simpa [Shift.lookUp, Ne.symm hk] using hM'
      exact .of_eq hflow rfl (by simp [Place.tally, hk])
  | @drainCrash m M₀ active first c rest hm =>
    by_cases hk : m = k
    · subst hk
      obtain rfl := hsame hm
      obtain rfl : _ = M' := by simpa [Shift.lookUp] using hM'
      have h : n.Flow 0 { leaving := rest.length + 1 } {} n' := by
        simpa [Place.tally] using hflow
      exact .drainCrash (hb rfl) h
    · obtain rfl : M = M' := by simpa [Shift.lookUp, Ne.symm hk] using hM'
      exact .of_eq hflow rfl (by simp [Place.tally, hk])
  | ended hm h =>
    obtain rfl := Option.some.inj hM'
    exact .of_eq hflow rfl (by simp [Place.tally])

/-- **The making of another manager means nothing for a manager.** -/
theorem Making.entry (h : Making s p u) (hM' : u.shift.lookUp k (some M) = some M')
    (hflow : n.Flow (u.wake.count k n.sleeping) (p.tally k b) (u.place.tally k false) n')
    (hk : p.warms k = 0) : Entry panics locked 0 M n M' n' := by
  cases h with
  | @made m plan factory built hl =>
    have hne : k ≠ m := by
      rintro rfl
      simp at hk
    obtain rfl : M = M' := by simpa [Shift.lookUp, hne] using hM'
    exact .of_eq hflow rfl rfl
  | created hb hi ho =>
    obtain rfl := Option.some.inj hM'
    exact .of_eq hflow rfl (by simp [Place.tally, ho])
  | _ =>
    obtain rfl := Option.some.inj hM'
    exact .of_eq hflow rfl rfl

/-- **What the beginning of an operation means for a manager.** -/
theorem Beginning.entry {operation : Operation} (h : Beginning s operation p u)
    (hM' : u.shift.lookUp k (some M) = some M')
    (hflow : n.Flow (u.wake.count k n.sleeping) (p.tally k b) (u.place.tally k false) n') :
    Entry panics locked 0 M n M' n' := by
  cases h with
  | @opens m M₀ purpose timeout o hm =>
    obtain rfl := Option.some.inj hM'
    by_cases hk : m = k
    · exact .came (by simpa [Place.tally, hk] using hflow)
    · exact .of_eq hflow rfl (by simp [Place.tally, hk])
  | @drops m M₀ o o' hm hu h =>
    have hne : k ≠ m := by
      rintro rfl
      simp [Shift.lookUp] at hM'
    obtain rfl : M = M' := by simpa [Shift.lookUp, hne] using hM'
    exact .of_eq hflow rfl rfl
  | _ =>
    obtain rfl := Option.some.inj hM'
    exact .of_eq hflow rfl rfl

/-- **What a holder's dealing with its context means for a manager.** -/
theorem Dealing.entry {handling : Handling} (hp : s.placeOf i = p) (h : Dealing s handling p u)
    (hM' : u.shift.lookUp k (some M) = some M')
    (hflow : n.Flow (u.wake.count k n.sleeping) (p.tally k b) (u.place.tally k false) n') :
    Entry panics locked (s.drops k (.handle i handling)) M n M' n' := by
  have hgone : ∀ {c : Context σ} {o : Outcome},
      n.Flow 0 (Place.tally k b (.holding .direct c))
        ((Place.finished (σ := σ) o).tally k false) n' →
        Entry panics locked (if c.owner = some k then 1 else 0) M n M n' := by
    intro c o hflow
    split
    · rename_i hk
      exact .lost (by simpa [Place.tally, hk] using hflow)
    · rename_i hk
      exact .of_eq hflow rfl (by simp [Place.tally, hk])
  cases h with
  | @letsGo c o h =>
    obtain rfl := Option.some.inj hM'
    simpa only [drops, hp, Place.loose] using hgone hflow
  | @unwinds c payload =>
    obtain rfl := Option.some.inj hM'
    simpa only [drops, hp, Place.loose] using hgone hflow
  | @leaves m c =>
    obtain rfl := Option.some.inj hM'
    simpa only [drops, hp, Place.loose] using Entry.of_eq hflow rfl rfl
  | @unwindsLease m c payload =>
    obtain rfl := Option.some.inj hM'
    simpa only [drops, hp, Place.loose] using Entry.of_eq hflow rfl rfl
  | _ =>
    obtain rfl := Option.some.inj hM'
    exact .of_eq hflow rfl rfl

/-! ## Entries of moves -/

theorem mem_putAt_self (places : List (Place σ)) (i : Nat) (p : Place σ) :
    p ∈ putAt places i p := by
  unfold putAt
  split
  · exact List.mem_set ‹_› p
  · simp

/-- **Every move is an entry of every manager that is there before and after it.** -/
theorem ledger_step (hr : s.Registered) (h : s.move invoke mv = some t)
    (hM : s.manager? k = some M) (hM' : t.manager? k = some M') (before : Nat → Bool) :
    Entry (¬t.Calm) (s.locks k mv = true) (s.drops k mv) M (s.tally before k) M'
      (t.tally (s.signalled mv t before) k) := by
  obtain ⟨i, u, hi, hu, hf⟩ | hidle := move_turn h
  · have hmark := hr.marked_placeOf i
    have hflow := hf.flow hi hu before k
    rw [hr.manager? hu hf, hM] at hM'
    have hb : u.place.isGrieving = true → ¬t.Calm := by
      intro hg hc
      have hmem : u.place ∈ t.places := hf.places ▸ mem_putAt_self _ i _
      rw [hc _ hmem] at hg
      cases hg
    have hwarm := hr.warms_eq_zero hM i
    obtain ⟨p, hp⟩ : ∃ p, s.placeOf i = p := ⟨_, rfl⟩
    rw [hp] at hu hflow hmark hwarm
    cases hu with
    | opening hu =>
      by_cases hown : ∀ r, p.request? = some r → r.manager ≠ k
      · obtain ⟨h1, h2, h3⟩ := hu.apart (M := M) (n := s.tally before k) hr hmark hown
        rw [h1] at hM'
        obtain rfl := Option.some.inj hM'
        exact .of_eq hflow h2 h3
      · have hk : ∀ r, p.request? = some r → r.manager = k := by
          intro r hreq
          refine Decidable.byContradiction fun hne => hown fun r' hreq' => ?_
          rw [hreq] at hreq'
          obtain rfl := Option.some.inj hreq'
          exact hne
        refine hu.entry_own hr hmark hM hM' hflow hb ?_ hk
        rintro r (rfl | ⟨e, rfl⟩) <;> simp [locks, hp, hk r rfl]
    | givingBack hu =>
      refine hu.entry hmark hM hM' hflow hb ?_
      rintro aim c rfl ho
      simp [locks, hp, ho]
    | stopping hu =>
      refine hu.entry hM hM' hflow hb ?_
      rintro rfl
      simp [locks, hp]
    | making hu => exact hu.entry hM' hflow hwarm
    | beginning hu => exact hu.entry hM' hflow
    | dealing hu => exact hu.entry hp hM' hflow
    | works =>
      obtain rfl := Option.some.inj hM'
      exact .of_eq hflow rfl rfl
    | @rousing r =>
      obtain rfl := Option.some.inj hM'
      by_cases hk : r.manager = k
      · exact .awoke (by simpa [Place.tally, hk] using hflow)
      · exact .of_eq hflow rfl (by simp [Place.tally, hk])
  · rw [manager?_of_managers_eq hidle.managers, hM] at hM'
    obtain rfl := Option.some.inj hM'
    have hsame : t.tally (s.signalled mv t before) k = s.tally before k := by
      simp only [tally, hidle.places, hidle.heeding]
    obtain ⟨nanos, rfl⟩ | ⟨text, rfl⟩ := hidle.move <;>
      exact .still (by rw [hsame]; exact ⟨rfl, rfl, rfl, rfl, rfl, rfl⟩)

theorem sleeps_eq_zero {p : Place σ} (h : p.waits k = 0) : p.sleeps k = 0 := by
  cases p <;> simp_all [Place.sleeps, Place.waits]

/-- Where nobody has to do with a manager, its tally is empty. -/
theorem tally_eq_empty (h : total (Place.claims k) s.places = 0) (signalled : Nat → Bool) :
    s.tally signalled k = {} := by
  have hz : ∀ p ∈ s.places, p.waits k = 0 ∧ p.builds k = 0 ∧ p.holds k = 0 ∧ p.removes k = 0 := by
    intro p hp
    have := eq_zero_of_total h hp
    simp only [Place.claims] at this
    omega
  have hheed : s.heeding signalled k = 0 := by
    refine heeding_eq_zero fun i r hp hr => ?_
    have := (hz _ (List.mem_of_getElem? hp)).1
    simp [hr] at this
  unfold tally
  rw [hheed, total_eq_zero fun p hp => (hz p hp).1,
    total_eq_zero fun p hp => sleeps_eq_zero (hz p hp).1,
    total_eq_zero fun p hp => (hz p hp).2.1, total_eq_zero fun p hp => (hz p hp).2.2.1,
    total_eq_zero fun p hp => (hz p hp).2.2.2]

/-- **A manager that is made has the contexts that were built for it, and nobody to do with it**; it
is the first one under its number. -/
theorem ledger_start (hr : s.Registered) (h : s.move invoke mv = some t)
    (hM : s.manager? k = none) (hM' : t.manager? k = some M') (signalled : Nat → Bool) :
    s.Fresh k ∧ t.tally signalled k = {} ∧ ∃ plan factory built,
      M' = firstManager plan factory built ∧ built.length = plan.startCount ∧
        ∀ config, plan = .pool config → config.Valid := by
  obtain ⟨i, u, hi, hu, hf⟩ | hidle := move_turn h
  · have hmark := hr.marked_placeOf i
    rw [hr.manager? hu hf, hM] at hM'
    obtain ⟨M, hsome⟩ | ⟨plan, factory, built, hp, hl, -, hfirst⟩ :=
      hu.replaced (Shift.of_lookUp hM')
    · rw [hM] at hsome
      cases hsome
    · rw [hp] at hmark
      have hpos := placeOf_le_total (s := s) (f := Place.warms k) rfl i
      rw [hp] at hpos
      simp only [Place.warms, if_true] at hpos
      have hfresh : s.Fresh k := .inr hpos
      have hcl := hr.claims_eq_zero hfresh
      have hle := hu.claims_le hr (hr.marked_placeOf i) hM
      have htotal := hf.total hi (steady_claims k) (by simp)
      exact ⟨hfresh, tally_eq_empty (by omega) signalled, plan, factory, built,
        Option.some.inj hfirst, Nat.le_antisymm hmark.2.1 hl, hmark.2.2⟩
  · rw [manager?_of_managers_eq hidle.managers, hM] at hM'
    cases hM'

/-- A manager that is gone does not come back. -/
theorem gone_of_run (hs : Reachable invoke s) (hf : ¬s.Fresh m) (hM : s.manager? m = none)
    (h : s.run invoke moves = some t) : t.manager? m = none := by
  suffices hrun : Reachable invoke t ∧ ¬t.Fresh m ∧ t.manager? m = none from hrun.2.2
  refine run_induction (P := fun t => Reachable invoke t ∧ ¬t.Fresh m ∧ t.manager? m = none) ?_
    ⟨hs, hf, hM⟩ h
  rintro s t mv ⟨hs, hf, hM⟩ hm
  refine ⟨hs.move hm, fun hf' => hf (hf'.of_move hm), ?_⟩
  cases hM' : t.manager? m with
  | none => rfl
  | some M' => exact absurd (ledger_start hs.registered hm hM hM' fun _ => false).1 hf

/-- **What a manager starts with and every entry keeps holds of it wherever a run leads.** -/
theorem ledger_induction {P : Manager σ → Tally → Prop}
    (start : ∀ plan factory built, built.length = plan.startCount →
      (∀ config, plan = .pool config → config.Valid) → P (firstManager plan factory built) {})
    (step : ∀ {panics locked : Prop} {d : Nat} {M M' : Manager σ} {n n' : Tally},
      Entry panics locked d M n M' n' → P M n → P M' n')
    {signalled : Nat → Bool} (hs : Watched invoke s signalled) (hM : s.manager? k = some M) :
    P M (s.tally signalled k) := by
  induction hs generalizing M with
  | start factories => obtain ⟨_ | n⟩ := k <;> simp [State.manager?, initial] at hM
  | @move s t mv before hs hm ih =>
    cases hM₀ : s.manager? k with
    | none =>
      obtain ⟨-, he, plan, factory, built, rfl, hl, hv⟩ :=
        ledger_start hs.reachable.registered hm hM₀ hM (s.signalled mv t before)
      rw [he]
      exact start plan factory built hl hv
    | some M₀ => exact step (ledger_step hs.reachable.registered hm hM₀ hM before) (ih hM₀)

end State
end Lending
end HookPool
