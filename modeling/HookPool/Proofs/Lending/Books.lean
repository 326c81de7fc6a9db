/-
# The books of a manager, and who has changed them

What a manager tells of its contexts is how many are lent, which ones are at hand, and how many were
made and destroyed: its books.  A caller changes them in one way at a time, by an `Edit`, and
`State.edit?` says by which one, from the place that the caller is in.

Main statement: the books of a manager after a move are those before it with the edit of the move
(`books_move`).  So whatever a manager has come to on a run is the work of the callers, each of
which can be told apart (`editsBut`).
-/
import HookPool.Proofs.Lending.Capacity
import HookPool.Proofs.Lending.UnderWay

namespace HookPool
namespace Lending

variable {σ : Type}

/-- What a manager tells of its contexts. -/
structure Books (σ : Type) where
  /-- How many contexts are lent or being built. -/
  active : Nat
  /-- The contexts at hand, the next one to lend first. -/
  idle : List (Context σ)
  created : Nat
  destroyed : Nat

def Manager.books (M : Manager σ) : Books σ :=
  ⟨M.stock.active, M.stock.contexts, M.created, M.destroyed⟩

/-- What a caller can do to the books of a manager. -/
inductive Edit (σ : Type) where
  /-- It takes the next context, or a slot if none is at hand. -/
  | taken
  /-- It frees what it has taken. -/
  | freed
  /-- It frees what it has taken, and leaves a context behind those at hand. -/
  | kept (c : Context σ)
  | created
  | destroyed
  /-- It takes all contexts at hand away. -/
  | emptied

namespace Edit

def apply : Edit σ → Books σ → Books σ
  | taken, B => { B with active := B.active + 1, idle := B.idle.tail }
  | freed, B => { B with active := B.active - 1 }
  | kept c, B => { B with active := B.active - 1, idle := B.idle ++ [c] }
  | created, B => { B with created := B.created + 1 }
  | destroyed, B => { B with destroyed := B.destroyed + 1 }
  | emptied, B => { B with idle := [] }

/-- The edit frees what was taken. -/
def Frees : Edit σ → Prop
  | freed | kept _ => True
  | _ => False

end Edit

/-- The books after edits, the first one first. -/
def Books.replay (B : Books σ) (edits : List (Edit σ)) : Books σ :=
  edits.foldl (fun B e => e.apply B) B

/-- The books with more slots taken. -/
def Books.withSlots (B : Books σ) (n : Nat) : Books σ :=
  { B with active := B.active + n }

@[simp] theorem Books.replay_nil (B : Books σ) : B.replay [] = B := rfl

theorem Books.replay_append (B : Books σ) (edits more : List (Edit σ)) :
    B.replay (edits ++ more) = (B.replay edits).replay more :=
  List.foldl_append ..

/-- **What others do to the books does not depend on the slots that somebody else has taken**, if
whatever they free was taken besides. -/
theorem Edit.apply_withSlots {e : Edit σ} {B : Books σ} {n : Nat} (h : e.Frees → 1 ≤ B.active) :
    e.apply (B.withSlots n) = (e.apply B).withSlots n := by
  cases e with
  | taken => simp [Edit.apply, Books.withSlots, Nat.add_right_comm]
  | freed =>
    have := h trivial
    simp [Edit.apply, Books.withSlots]
    omega
  | kept c =>
    have := h trivial
    simp [Edit.apply, Books.withSlots]
    omega
  | created | destroyed | emptied => rfl

/-- What a caller does to the books of a manager by its next step, if the manager is `M` before it
and `M'` after it. -/
def Place.edit? (k : ManagerId) (M M' : Manager σ) : Place σ → Option (Edit σ)
  | .asking r =>
    if r.manager = k ∧ M.poisoned = false ∧ M.closed = false then
      match M.stock.offer with
      | .lent .. | .reserved _ => some .taken
      | .full => none
    else none
  | .grown r _ => if r.manager = k then some .created else none
  | .abandoned r _ => if r.manager = k then some .freed else none
  | .returning m _ c =>
    if m = k ∧ c.owner = some k ∧ M.poisoned = false then
      -- a caller whose sink panics while it has the lock poisons the manager
      if M.keeps && !M'.poisoned then some (.kept c) else some .freed
    else none
  | .evicting m _ _ => if m = k then some .destroyed else none
  | .draining m _ _ (_ :: _) => if m = k then some .destroyed else none
  | .stopping m => if m = k ∧ M.poisoned = false then some .emptied else none
  | _ => none

namespace State

variable {invoke : Invoke σ} {s t : State σ} {mv : Move σ} {moves rest : List (Move σ)}
  {i j chosen : Nat} {p : Place σ} {u : Upshot σ} {k m : ManagerId} {M M' : Manager σ}

/-- What is done to the books of a manager in a move to `t`. -/
def edit? (s : State σ) (k : ManagerId) (t : State σ) : Move σ → Option (Edit σ)
  | .run caller _ =>
    match s.manager? k, t.manager? k with
    | some M, some M' => (s.placeOf caller).edit? k M M'
    | _, _ => none
  | _ => none

/-- What callers other than `i` do to the books of a manager on a run. -/
def editsBut (invoke : Invoke σ) (i : Nat) (k : ManagerId) (s : State σ) (moves : List (Move σ)) :
    List (Edit σ) :=
  s.gather invoke (fun s mv t => (if mv.isTurnOf i then none else s.edit? k t mv).toList) moves

theorem editsBut_append (h : s.run invoke moves = some t) :
    s.editsBut invoke i k (moves ++ rest) =
      s.editsBut invoke i k moves ++ t.editsBut invoke i k rest :=
  gather_append h

theorem editsBut_one (hm : s.move invoke mv = some t) (hmv : mv.isTurnOf i = false) :
    s.editsBut invoke i k [mv] = (s.edit? k t mv).toList := by
  rw [editsBut, gather_one hm, hmv, if_neg Bool.false_ne_true]

theorem editsBut_own (hm : s.move invoke mv = some t) (hmv : mv.isTurnOf i = true) :
    s.editsBut invoke i k [mv] = [] := by
  rw [editsBut, gather_one hm, hmv, if_pos rfl]
  rfl

theorem edit?_run (hM : s.manager? k = some M) (hM' : t.manager? k = some M') :
    s.edit? k t (.run i chosen) = (s.placeOf i).edit? k M M' := by
  simp only [edit?, hM, hM']

/-! ## What a turn does to the books -/

theorem Place.edit?_apart (h : ∀ r, p.request? = some r → r.manager ≠ k) {r : Request}
    (hr : p.request? = some r) : p.edit? k M M' = none := by
  have hne := h r hr
  cases p <;> cases hr <;> simp [Place.edit?, hne]

/-- A turn that changes no manager does nothing to the books. -/
theorem books_keep (hM' : Shift.lookUp k (some M) .keep = some M')
    (h : p.edit? k M M = none) : M'.books = M.books.replay (p.edit? k M M').toList := by
  obtain rfl := Option.some.inj hM'
  rw [h]
  rfl

/-- **What a turn does to the books that changes one manager**: nothing, unless it is this one. -/
theorem books_replace {M₀ M₁ : Manager σ} (hm : s.manager? m = some M₀)
    (hM : s.manager? k = some M) (hM' : Shift.lookUp k (some M) (.replace m (some M₁)) = some M')
    (hother : m ≠ k → p.edit? k M M = none)
    (hown : m = k → M₁.books = M₀.books.replay (p.edit? k M₀ M₁).toList) :
    M'.books = M.books.replay (p.edit? k M M').toList := by
  by_cases hk : m = k
  · subst hk
    obtain rfl := Option.some.inj (hM.symm.trans hm)
    obtain rfl : M₁ = M' := by simpa [Shift.lookUp] using hM'
    exact hown rfl
  · obtain rfl : M = M' := by simpa [Shift.lookUp, Ne.symm hk] using hM'
    rw [hother hk]
    rfl

/-- **What an opener does to the books of its manager by its turn.** -/
theorem Opening.books (h : Opening s chosen p u) (hk : ∀ r, p.request? = some r → r.manager = k)
    (hM : s.manager? k = some M)
    (hroom : M.stock.active + M.stock.contexts.length ≤ M.stock.maxActive)
    (hM' : u.shift.lookUp k (some M) = some M') :
    M'.books = M.books.replay (p.edit? k M M').toList := by
  have hsame : ∀ {M₀ : Manager σ}, s.manager? k = some M₀ → M₀ = M := fun h =>
    Option.some.inj (h.symm.trans hM)
  cases h with
  | @barred r M₀ hm hp =>
    obtain rfl := hk r rfl
    obtain rfl := hsame hm
    exact books_keep hM' (by simp [Place.edit?, hp])
  | @shutOut r M₀ hm hp hc =>
    obtain rfl := hk r rfl
    obtain rfl := hsame hm
    exact books_keep hM' (by simp [Place.edit?, hc])
  | @fellAsleep r M₀ hm hp hc ho hd =>
    obtain rfl := hk r rfl
    obtain rfl := hsame hm
    exact books_keep hM' (by simp [Place.edit?, ho])
  | @timedOut r M₀ d hm hp hc ho hd ht =>
    obtain rfl := hk r rfl
    obtain rfl := hsame hm
    exact books_keep hM' (by simp [Place.edit?, ho])
  | @lent r M₀ c rest hm hp hc ho | @lentCrash r M₀ c rest hm hp hc ho =>
    obtain rfl := hk r rfl
    obtain rfl := hsame hm
    have hactive := Stock.active_of_offer_lent ho hroom
    have hcontexts := Stock.contexts_of_offer_lent ho
    refine books_replace hm hM hM' (absurd rfl) fun _ => ?_
    simp [Place.edit?, hp, hc, ho, Manager.books, Books.replay, Edit.apply, hactive, hcontexts,
      Manager.withStock, Manager.poison]
  | @reserved r M₀ rest hm hp hc ho =>
    obtain rfl := hk r rfl
    obtain ⟨hnil, -, hrest, hactive⟩ := Stock.of_offer_reserved ho
    refine books_replace hm hM hM' (absurd rfl) fun _ => ?_
    simp [Place.edit?, hp, hc, ho, Manager.books, Books.replay, Edit.apply, hactive, hnil, hrest,
      Manager.withStock]
  | @counted r M₀ c hm | @countedCrash r M₀ c hm =>
    obtain rfl := hk r rfl
    refine books_replace hm hM hM' (absurd rfl) fun _ => ?_
    simp [Place.edit?, Manager.books, Books.replay, Edit.apply, Manager.countCreated]
  | @gaveUp r M₀ e hm =>
    obtain rfl := hk r rfl
    refine books_replace hm hM hM' (absurd rfl) fun _ => ?_
    simp [Place.edit?, Manager.books, Books.replay, Edit.apply, Manager.withStock]
  | built | buildFailed | buildFailedCrash | buildCrash => exact books_keep hM' rfl

/-- **What a caller that gives a context back does to the books of a manager by its turn.** -/
theorem GivingBack.books (h : GivingBack invoke s chosen p u) {n : Tally}
    (hM : s.manager? k = some M) (hb : Bounded M n) (hheld : p.holds k ≤ n.held)
    (hM' : u.shift.lookUp k (some M) = some M') :
    M'.books = M.books.replay (p.edit? k M M').toList := by
  cases h with
  | called | undefined | undefinedCrash => exact books_keep hM' rfl
  | @refused m M₀ aim c hm ho ha | @refusedEnd m M₀ aim c o hm ho ha =>
    refine books_keep hM' (if_neg fun hthis => ?_)
    obtain ⟨rfl, hown, -⟩ := hthis
    exact ho hown
  | @barred m M₀ aim c o hm ho hp ha =>
    refine books_keep hM' (if_neg fun hthis => ?_)
    obtain ⟨rfl, -, hsound⟩ := hthis
    rw [Option.some.inj (hM.symm.trans hm), hp] at hsound
    cases hsound
  | @kept m M₀ aim c hm ho hp hkeep =>
    refine books_replace hm hM hM' (fun hk => by simp [Place.edit?, hk]) ?_
    rintro rfl
    obtain rfl := Option.some.inj (hM.symm.trans hm)
    have hput := hb.contexts_put (Nat.lt_of_succ_le (by simpa [ho] using hheld)) c
    simp [Place.edit?, ho, hp, hkeep, Manager.books, Books.replay, Edit.apply, hput,
      Manager.withStock]
  | @keptCrash m M₀ aim c hm ho hp hkeep =>
    refine books_replace hm hM hM' (fun hk => by simp [Place.edit?, hk]) ?_
    rintro rfl
    simp [Place.edit?, ho, hp, Manager.books, Books.replay, Edit.apply, Manager.withStock,
      Manager.poison]
  | @turnedAway m M₀ aim c hm ho hp hkeep =>
    refine books_replace hm hM hM' (fun hk => by simp [Place.edit?, hk]) ?_
    rintro rfl
    simp [Place.edit?, ho, hp, hkeep, Manager.books, Books.replay, Edit.apply, Manager.withStock]
  | @evicted m M₀ aim c o hm ho =>
    refine books_replace hm hM hM' (fun hk => by simp [Place.edit?, hk]) ?_
    rintro rfl
    simp [Place.edit?, Manager.books, Books.replay, Edit.apply, Manager.countDestroyed]

/-- **What a caller that shuts a manager down does to the books of a manager by its turn.** -/
theorem Stopping.books (h : Stopping s p u) (hM : s.manager? k = some M)
    (hM' : u.shift.lookUp k (some M) = some M') :
    M'.books = M.books.replay (p.edit? k M M').toList := by
  cases h with
  | @barred m M₀ hm hp =>
    refine books_keep hM' (if_neg fun hthis => ?_)
    obtain ⟨rfl, hsound⟩ := hthis
    rw [Option.some.inj (hM.symm.trans hm), hp] at hsound
    cases hsound
  | @stopped m M₀ hm hp =>
    refine books_replace hm hM hM' (fun hk => by simp [Place.edit?, hk]) ?_
    rintro rfl
    simp [Place.edit?, hp, Manager.books, Books.replay, Edit.apply, Manager.shut]
  | @drained m M₀ active first c rest hm | @drainCrash m M₀ active first c rest hm =>
    refine books_replace hm hM hM' (fun hk => by simp [Place.edit?, hk]) ?_
    rintro rfl
    simp [Place.edit?, Manager.books, Books.replay, Edit.apply, Manager.countDestroyed]
  | ended hm ho => exact books_keep hM' rfl

/-- **The books of a manager after a move are those before it with the edit of the move.** -/
theorem Reachable.books_move (hs : Reachable invoke s) (hm : s.move invoke mv = some t)
    (hM : s.manager? k = some M) (hM' : t.manager? k = some M') :
    M'.books = M.books.replay (s.edit? k t mv).toList := by
  have hr := hs.registered
  have hb := hs.bounded hM fun _ => false
  obtain ⟨i, u, hi, hu, hf⟩ | hidle := move_turn hm
  · have hmark := hr.marked_placeOf i
    have hheld := placeOf_le_total (s := s) (f := Place.holds k) rfl i
    have hwarm := hr.warms_eq_zero hM i
    have hlook := hM'
    rw [hr.manager? hu hf, hM] at hlook
    obtain ⟨p, hp⟩ : ∃ p, s.placeOf i = p := ⟨_, rfl⟩
    rw [hp] at hu hmark hheld hwarm
    cases hu with
    | opening hu =>
      rw [edit?_run hM hM', hp]
      by_cases hk : ∀ r, p.request? = some r → r.manager = k
      · exact hu.books hk hM hb.room hlook
      · obtain ⟨r, hreq, hne⟩ : ∃ r, p.request? = some r ∧ r.manager ≠ k := by
          simpa using hk
        have hown : ∀ r, p.request? = some r → r.manager ≠ k := by
          intro r' hreq'
          rw [hreq] at hreq'
          obtain rfl := Option.some.inj hreq'
          exact hne
        rw [(hu.apart (n := {}) (b := false) hr hmark hown).1] at hlook
        obtain rfl := Option.some.inj hlook
        rw [Place.edit?_apart hown hreq]
        rfl
    | givingBack hu =>
      rw [edit?_run hM hM', hp]
      exact hu.books hM hb hheld hlook
    | stopping hu =>
      rw [edit?_run hM hM', hp]
      exact hu.books hM hlook
    | making hu =>
      rw [edit?_run hM hM', hp]
      cases hu with
      | @made m plan factory built hl =>
        have hne : k ≠ m := by
          rintro rfl
          simp at hwarm
        obtain rfl : M = M' := by simpa [Shift.lookUp, hne] using hlook
        rfl
      | _ =>
        obtain rfl := Option.some.inj hlook
        rfl
    | beginning hu =>
      cases hu with
      | @drops m M₀ o o' hm hu h =>
        have hne : k ≠ m := by
          rintro rfl
          simp [Shift.lookUp] at hlook
        obtain rfl : M = M' := by simpa [Shift.lookUp, hne] using hlook
        rfl
      | _ =>
        obtain rfl := Option.some.inj hlook
        rfl
    | dealing hu =>
      cases hu <;> obtain rfl := Option.some.inj hlook <;> rfl
    | works =>
      obtain rfl := Option.some.inj hlook
      rfl
    | rousing =>
      obtain rfl := Option.some.inj hlook
      rfl
  · rw [manager?_of_managers_eq hidle.managers, hM] at hM'
    obtain rfl := Option.some.inj hM'
    obtain ⟨nanos, rfl⟩ | ⟨text, rfl⟩ := hidle.move <;> rfl

end State
end Lending
end HookPool
