/-
# Opening a context in vain

A caller that opens a context may end without one: the manager is closed or poisoned, its time is
over, or the factory fails.  Then the books of the manager are as if it had never come: they are
what the other callers have made of them since (`Opens.in_vain`).  For the time in which the caller
has a slot, the books are the same but for that slot (`Opens.books`), and it gives the slot up for
whoever waits.

That is not so of a caller that a factory takes along.  It has no chance to give its slot up, and as
nobody else frees what was not given to it, the slot is lost for good (`Bounded.astray_le`): a pool
of one whose factory has panicked once never lends anything again (`slot_lost_to_panic`).
-/
import HookPool.Proofs.Lending.Opener

namespace HookPool
namespace Lending

variable {σ : Type}

/-- **What is lent and in nobody's hands stays so**: whatever a caller frees was its own. -/
theorem Bounded.astray_le {M M' : Manager σ} {n n' : Tally} {panics locked : Prop} {d : Nat}
    (he : Entry panics locked d M n M' n') (h : Bounded M n) :
    M.stock.active + (n'.held + n'.building) ≤ M'.stock.active + (n.held + n.building) := by
  have hlent := h.lent
  cases he with
  | lent hl hp hc ho ha hn | lentCrash hl hp hc ho hb ha hn =>
    obtain ⟨-, -, -, hbuild, hheld, -⟩ := hn
    have hactive := Stock.active_of_offer_lent ho h.room
    simp only [Manager.stock_withStock, Manager.stock_poison] at hbuild hheld ⊢
    omega
  | reserved hl hp hc ho ha hn =>
    obtain ⟨-, -, -, hbuild, hheld, -⟩ := hn
    obtain ⟨-, -, -, hactive⟩ := Stock.of_offer_reserved ho
    simp only [Manager.stock_withStock] at hbuild hheld ⊢
    omega
  | gaveUp hl hn | keptCrash hl hp hk hb hn | turnedAway hl hp hk hn =>
    obtain ⟨-, -, -, hbuild, hheld, -⟩ := hn
    simp only [Manager.stock_withStock, Manager.stock_poison, Stock.active_vacate]
      at hbuild hheld ⊢
    omega
  | kept hl hp hk hn =>
    obtain ⟨-, -, -, hbuild, hheld, -⟩ := hn
    simp only [Manager.stock_withStock, Stock.active_put, Stock.active_vacate] at hbuild hheld ⊢
    omega
  | shut hl hp hn =>
    obtain ⟨-, -, -, hbuild, hheld, -⟩ := hn
    simp only [Manager.stock_shut, Stock.active_emptied] at hbuild hheld ⊢
    omega
  | still hn | came hn | went _ _ _ hn | fellAsleep _ _ _ _ _ hn | awoke hn | buildCrash _ hn
  | counted hn | countedCrash _ hn | lost hn | wasted _ hn | discarded hn | drainCrash _ hn =>
    obtain ⟨-, -, -, hbuild, hheld, -⟩ := hn
    simp only [Manager.stock_countCreated, Manager.stock_countDestroyed] at hbuild hheld ⊢
    omega

/-- Whoever frees something has it, or has a slot to build it in. -/
theorem Place.owns_of_frees {k : ManagerId} {M M' : Manager σ} {p : Place σ} {e : Edit σ}
    (h : p.edit? k M M' = some e) (he : e.Frees) : 0 < p.holds k ∨ 0 < p.builds k := by
  cases p with
  | abandoned r e' =>
    obtain ⟨hk, -⟩ := Option.ite_none_right_eq_some.1 h
    exact .inr (by simp [hk])
  | returning m aim c =>
    obtain ⟨⟨-, ho, -⟩, -⟩ := Option.ite_none_right_eq_some.1 h
    exact .inl (by simp [ho])
  | asking r =>
    simp only [Place.edit?] at h
    split at h
    · split at h <;> cases h <;> cases he
    · cases h
  | draining m active first rest =>
    cases rest with
    | nil => cases h
    | cons c rest =>
      obtain ⟨-, h⟩ := Option.ite_none_right_eq_some.1 h
      cases h
      cases he
  | grown r c | evicting m aim c | stopping m =>
    obtain ⟨-, h⟩ := Option.ite_none_right_eq_some.1 h
    cases h
    cases he
  | _ => cases h

namespace State

variable {invoke : Invoke σ} {s t t' : State σ} {mv : Move σ} {moves : List (Move σ)}
  {i chosen : Nat} {p : Place σ} {u : Upshot σ} {k m : ManagerId} {M M' : Manager σ} {r : Request}
  {purpose : Purpose} {timeout : Option Duration} {e : Error} {B : Books σ} {o : Outcome}

/-! ## The slot of an opener -/

/-- **What others do to the books is the same with or without the slot of an opener.** -/
theorem Reachable.books_other (hs : Reachable invoke t) (hm : t.move invoke mv = some t')
    (hmv : mv.isTurnOf i = false) (hM : t.manager? m = some M) (hM' : t'.manager? m = some M')
    (hB : M.books = B.withSlots ((t.placeOf i).builds m)) :
    M'.books = (B.replay (t.edit? m t' mv).toList).withSlots ((t'.placeOf i).builds m) := by
  have hsame : (t'.placeOf i).builds m = (t.placeOf i).builds m := by
    obtain ⟨hturn, -⟩ | ⟨-, hplace | ⟨r, hr, hplace⟩⟩ := move_cases hm i
    · rw [hmv] at hturn
      cases hturn
    · rw [hplace]
    · rw [hplace, hr]
      rfl
  rw [hs.books_move hm hM hM', hB, hsame]
  cases he : t.edit? m t' mv with
  | none => rfl
  | some e =>
    refine Edit.apply_withSlots fun hfrees => ?_
    -- two callers have something of the manager each: the one that frees it, and the opener
    obtain ⟨j, chosen, rfl⟩ : ∃ j chosen, mv = .run j chosen := by
      cases mv with
      | run j chosen => exact ⟨j, chosen, rfl⟩
      | _ => cases he
    rw [edit?_run hM hM'] at he
    have hji : j ≠ i := of_decide_eq_false hmv
    have hlent : total (Place.holds m) t.places + total (Place.builds m) t.places ≤
      M.books.active := (hs.bounded hM fun _ => false).lent
    have hactive : M.books.active = B.active + (t.placeOf i).builds m := by rw [hB]; rfl
    have hi := placeOf_le_total (s := t) (f := Place.builds m) rfl i
    rcases Place.owns_of_frees he hfrees with hholds | hbuilds
    · have hj := placeOf_le_total (s := t) (f := Place.holds m) rfl j
      omega
    · by_cases hzero : (t.placeOf i).builds m = 0
      · have hj := placeOf_le_total (s := t) (f := Place.builds m) rfl j
        omega
      · have hboth := add_le_total (Place.builds m) hji
          (mem_places_of_placeOf rfl fun o ho => by rw [ho] at hbuilds; cases hbuilds)
          (mem_places_of_placeOf rfl fun o ho => hzero (by rw [ho]; rfl))
        omega

/-- **What an opener does to the books is nothing but its slot**, until it has its context, unless
it comes to grief. -/
theorem Opening.books_own (h : Opening s chosen p u) (hk : ∀ r, p.request? = some r → r.manager = k)
    (hM : s.manager? k = some M) (hM' : u.shift.lookUp k (some M) = some M')
    (hB : M.books = B.withSlots (p.builds k))
    (hu : u.place.request? ≠ none ∨ ∃ e, u.place = .finished (.failed e)) :
    M'.books = B.withSlots (u.place.builds k) := by
  have hsame : ∀ {M₀ : Manager σ}, s.manager? k = some M₀ → M₀ = M := fun h =>
    Option.some.inj (h.symm.trans hM)
  have hserved (r : Request) (c : Context σ) :
      ¬((r.served c).request? ≠ none ∨ ∃ e, r.served c = .finished (.failed e)) := by
    rintro (h | ⟨e, h⟩)
    · exact h (request?_served r c)
    · exact served_ne_finished r c _ h
  cases h with
  | @reserved r M₀ rest hm hp hc ho =>
    obtain rfl := hk r rfl
    obtain rfl := hsame hm
    obtain rfl : _ = M' := by simpa [Shift.lookUp] using hM'
    obtain ⟨hnil, -, hrest, hactive⟩ := Stock.of_offer_reserved ho
    obtain rfl : M₀.books = B := hB
    simp [Manager.books, Manager.withStock, Books.withSlots, hnil, hrest, hactive]
  | @gaveUp r M₀ e hm =>
    obtain rfl := hk r rfl
    obtain rfl := hsame hm
    obtain rfl : _ = M' := by simpa [Shift.lookUp] using hM'
    have hslot : M₀.books = B.withSlots 1 := by simpa using hB
    simp only [Manager.books, Books.withSlots, Books.mk.injEq] at hslot
    obtain ⟨hactive, hidle, hcreated, hdestroyed⟩ := hslot
    simp [Manager.books, Manager.withStock, Books.withSlots, hactive, hidle, hcreated, hdestroyed]
  | lent | counted => exact absurd hu (hserved _ _)
  | lentCrash | buildFailedCrash | buildCrash | countedCrash => simp [Place.request?] at hu
  | barred | shutOut | fellAsleep | timedOut =>
    obtain rfl := Option.some.inj hM'
    exact hB
  | built | buildFailed =>
    obtain rfl := Option.some.inj hM'
    exact hB

/-- **As long as a caller opens a context, the books are what the others have made of them**, but
for its slot. -/
theorem Opens.books (h : Opens invoke s i m purpose timeout moves t) (hM : s.manager? m = some M)
    (hM' : t.manager? m = some M') :
    M'.books = (M.books.replay
      (s.editsBut invoke i m (.begin i (.acquire m purpose timeout) :: moves))).withSlots
        ((t.placeOf i).builds m) := by
  refine h.induction (P := fun moves t => ∀ M', t.manager? m = some M' → M'.books =
    (M.books.replay (s.editsBut invoke i m
      (.begin i (.acquire m purpose timeout) :: moves))).withSlots ((t.placeOf i).builds m))
    ?_ ?_ M' hM'
  · intro t hm M' hM'
    rw [editsBut_own hm (decide_eq_true rfl)]
    obtain ⟨-, rfl, hi⟩ := of_begin hm
    rw [manager?_of_managers_eq (managers_put s i _), hM] at hM'
    obtain rfl := Option.some.inj hM'
    rw [placeOf_put hi]
    rfl
  · intro moves t mv t' h ih hm h' M₂ hM₂
    obtain ⟨M₁, hM₁⟩ := h.manager?
    have hB := ih M₁ hM₁
    rw [← List.cons_append, editsBut_append h.run, Books.replay_append]
    cases hmv : mv.isTurnOf i with
    | false =>
      rw [editsBut_one hm hmv]
      exact h.reaches.books_other hm hmv hM₁ hM₂ hB
    | true =>
      rw [editsBut_own hm hmv, Books.replay_nil]
      obtain ⟨-, u, -, hu, hf, hplace⟩ | ⟨hno, -⟩ := move_cases hm i
      case inr => rw [hmv] at hno; cases hno
      have hlook := h.reaches.registered.manager? hu hf m
      rw [hM₁, hM₂] at hlook
      have hreq := h.request?
      rw [hplace]
      obtain ⟨chosen, rfl, hopen⟩ | ⟨hp, hshift, hasks⟩ := hu.opens hreq
      · refine hopen.books_own (fun r hr => ?_) hM₁ hlook.symm hB (.inl (hplace ▸ h'.underWay))
        rw [hreq] at hr
        exact (Option.some.inj hr) ▸ rfl
      · rw [hshift] at hlook
        obtain rfl := Option.some.inj hlook
        rw [hB, hp, hasks]
        rfl

/-! ## How it ends -/

/-- **Why an opener is denied a context**, by the manager `N` that it has found last. -/
inductive Denied (invoke : Invoke σ) (s : State σ) (i : Nat) (timeout : Option Duration)
    (moves : List (Move σ)) (N : Manager σ) : Error → Prop where
  | poisoned (hp : N.poisoned = true) : Denied invoke s i timeout moves N .lockFailed
  | closed (hp : N.poisoned = false) (hc : N.closed = true) :
    Denied invoke s i timeout moves N .managerClosed
  | late {after : Duration} (h : timeout = some after) (hp : N.poisoned = false)
    (hc : N.closed = false) (ho : N.stock.offer = .full) :
    Denied invoke s i timeout moves N (.timeout after)
  /-- It is the factory's own error. -/
  | failed {e : Error} (h : FailedWith invoke i s moves e) : Denied invoke s i timeout moves N e

/-- The slot that is given up from `t` to `t'` is for others. -/
structure GivenUp (invoke : Invoke σ) (t t' : State σ) (m : ManagerId) (M' : Manager σ) : Prop where
  room : M'.stock.active < M'.stock.maxActive
  /-- A sleeper is woken, if there is one. -/
  woken : (∀ r, .asleep r ∈ t'.places → r.manager ≠ m) ∨
    ∃ j r, t.placeOf j = .asleep r ∧ r.manager = m ∧ t'.placeOf j = .asking r
  /-- Whoever comes first to have the lock can have it. -/
  takes : M'.poisoned = false → M'.closed = false → ∀ j r chosen, t'.placeOf j = .asking r →
    r.manager = m → ∃ v, t'.move invoke (.run j chosen) = some v ∧ Taken t' v j r M'

/-- What is left of an opener that has ended with an error, where the manager was `M` when it began,
`N` before its last turn and `M'` after it. -/
structure LeavesNothing (invoke : Invoke σ) (s t t' : State σ) (i : Nat) (m : ManagerId)
    (timeout : Option Duration) (moves : List (Move σ)) (mv : Move σ) (M N M' : Manager σ)
    (e : Error) : Prop where
  /-- The books are what the others have made of them. -/
  books : M'.books = M.books.replay (s.editsBut invoke i m (moves ++ [mv]))
  denied : Denied invoke s i timeout moves N e
  givenUp : 0 < (t.placeOf i).builds m → GivenUp invoke t t' m M'

/-- What is left of an opener that has come to grief while it was building. -/
structure LosesSlot (invoke : Invoke σ) (s t t' : State σ) (i : Nat) (m : ManagerId)
    (moves : List (Move σ)) (mv : Move σ) (M N M' : Manager σ) (o : Outcome) : Prop where
  /-- The books are what the others have made of them, with one more slot taken. -/
  books : M'.books = (M.books.replay (s.editsBut invoke i m (moves ++ [mv]))).withSlots 1
  grief : ∃ payload, o = .panicked payload ∧ (t.product? N.factory = some (.panics payload) ∨
    payload = sinkPayload ∨ t.product? N.factory = none)
  /-- It is never free again: more contexts count as lent than callers have or build. -/
  forever : ∀ later v N', t'.run invoke later = some v → v.manager? m = some N' →
    total (Place.holds m) v.places + total (Place.builds m) v.places < N'.stock.active

/-- An opener that ends with an error is denied its context for a reason. -/
theorem Opens.denied (h : Opens invoke s i m purpose timeout moves t)
    (hN : t.manager? m = some M) (hopen : Opening t chosen (t.placeOf i) u)
    (hu : u.place = .finished (.failed e)) :
    Denied invoke s i timeout (.begin i (.acquire m purpose timeout) :: moves) M e := by
  have hreq := h.request?
  generalize hp : t.placeOf i = p at hopen hreq
  cases hopen with
  | lent | counted => exact absurd hu (served_ne_finished _ _ _)
  | barred hm hbad =>
    cases hu
    obtain rfl := Option.some.inj hreq
    obtain rfl := Option.some.inj (hm.symm.trans hN)
    exact .poisoned hbad
  | shutOut hm hsound hc =>
    cases hu
    obtain rfl := Option.some.inj hreq
    obtain rfl := Option.some.inj (hm.symm.trans hN)
    exact .closed hsound hc
  | timedOut hm hsound hc ho hd ht =>
    cases hu
    obtain rfl := Option.some.inj hreq
    obtain rfl := Option.some.inj (hm.symm.trans hN)
    obtain ⟨after, rfl, rfl, -⟩ := of_deadline? hd
    exact .late rfl hsound hc ho
  | gaveUp hm =>
    cases hu
    exact .failed (h.failedWith hp)
  | _ => cases hu

/-- **A wake-up of one wakes a sleeper, if there is one.** -/
theorem Follows.wakes (hf : Follows t t' i u) (hi : i ≤ t.places.length)
    (hw : u.wake = .one m chosen) (hp : ∀ r, t.placeOf i ≠ .asleep r)
    (hu : ∀ r, u.place ≠ .asleep r) : (∀ r, .asleep r ∈ t'.places → r.manager ≠ m) ∨
      ∃ j r, t.placeOf j = .asleep r ∧ r.manager = m ∧ t'.placeOf j = .asking r := by
  have hplaces := hf.places
  rw [hw] at hplaces
  obtain ⟨hnone, happly⟩ | ⟨j, r, hj, hr, happly⟩ := apply_one m chosen t.places
  · refine .inl fun r hmem hr => ?_
    rw [hplaces, happly] at hmem
    obtain he | hmem := mem_putAt hmem
    · exact hu r he.symm
    · have hone := le_total (Place.sleeps m) hmem
      rw [total_sleeps_of_sleepersIn hnone, Place.sleeps, if_pos hr] at hone
      exact absurd hone (by decide)
  · refine .inr ⟨j, r, placeOf_eq hj, hr, placeOf_eq ?_⟩
    have hji : j ≠ i := by
      rintro rfl
      exact hp r (placeOf_eq hj)
    rw [hplaces, happly, getElem?_putAt (by rwa [List.length_set]), if_neg hji,
      List.getElem?_set, if_pos rfl, if_pos (List.getElem?_eq_some_iff.1 hj).1]

/-- **A slot that is given up wakes a sleeper, and whoever comes first can have it.** -/
theorem Reachable.givenUp (hs : Reachable invoke t) (hm : t.move invoke mv = some t')
    (hmv : mv.isTurnOf i = true) (hp : t.placeOf i = .abandoned r e)
    (hM : t.manager? r.manager = some M) (hM' : t'.manager? r.manager = some M') :
    GivenUp invoke t t' r.manager M' := by
  have hb := hs.bounded hM fun _ => false
  obtain ⟨-, u, hi, hu, hf, -⟩ | ⟨hno, -⟩ := move_cases hm i
  case inr => rw [hmv] at hno; cases hno
  have hlook := hs.registered.manager? hu hf r.manager
  have hmine := placeOf_le_total (s := t) (f := Place.builds r.manager) rfl i
  have hlent : total (Place.holds r.manager) t.places + total (Place.builds r.manager) t.places ≤
    M.stock.active := hb.lent
  rw [hp] at hu hmine
  rw [hM, hM'] at hlook
  simp only [Place.builds, if_true] at hmine
  have hpool : M.stock.isPool = true := by
    cases hk : M.stock.isPool with
    | true => rfl
    | false =>
      have hnone : total (Place.builds r.manager) t.places = 0 := hb.grows hk
      omega
  obtain ⟨chosen, rfl, hopen⟩ | ⟨hasleep, -⟩ := hu.opens rfl
  case inr => cases hasleep
  cases hopen with
  | @gaveUp _ M₀ _ hm₀ =>
    obtain rfl := Option.some.inj (hm₀.symm.trans hM)
    obtain rfl : M' = M₀.withStock M₀.stock.vacate := by simpa [Shift.lookUp] using hlook
    have hroom : (M₀.withStock M₀.stock.vacate).stock.active <
        (M₀.withStock M₀.stock.vacate).stock.maxActive := by
      have hmax := Stock.maxActive_congr M₀.stock.config?_vacate
      have := hb.room
      simp only [Manager.stock_withStock, Stock.active_vacate, hmax]
      omega
    have hwoken := hf.wakes hi rfl (by simp [hp]) (by simp)
    refine ⟨hroom, hwoken, fun hsound hopen j r' chosen hj hr' => ?_⟩
    refine taken_of_look (hr' ▸ hM') hsound hopen (fun hfull => ?_) hj chosen
    have hle := (Stock.of_offer_full hfull).2
      ((Stock.isPool_congr M₀.stock.config?_vacate).trans hpool)
    omega

/-- More contexts of the manager count as lent than callers have or build. -/
def Overdrawn (m : ManagerId) (t : State σ) : Prop :=
  ∀ M, t.manager? m = some M →
    total (Place.holds m) t.places + total (Place.builds m) t.places < M.stock.active

/-- **A slot that nobody has is never free again.** -/
theorem Overdrawn.run (h : Overdrawn m t) (ht : Reachable invoke t) (hmade : ¬t.Fresh m)
    (hr : t.run invoke moves = some t') : Overdrawn m t' := by
  refine (run_induction (P := fun v => Reachable invoke v ∧ ¬v.Fresh m ∧ Overdrawn m v) ?_
    ⟨ht, hmade, h⟩ hr).2.2
  rintro v w mv ⟨hv, hmade, hover⟩ hm
  refine ⟨hv.move hm, fun hf => hmade (hf.of_move hm), fun M' hM' => ?_⟩
  cases hM : v.manager? m with
  | none => exact absurd (ledger_start hv.registered hm hM hM' fun _ => false).1 hmade
  | some M =>
    have hle : M.stock.active + (total (Place.holds m) w.places +
        total (Place.builds m) w.places) ≤ M'.stock.active +
          (total (Place.holds m) v.places + total (Place.builds m) v.places) :=
      Bounded.astray_le (ledger_step hv.registered hm hM hM' fun _ => false) (hv.bounded hM _)
    have := hover M hM
    omega

/-- **A builder ends only by coming to grief**, with the factory or the sink, and leaves all
managers as they are. -/
theorem Opening.grief (h : Opening t chosen (.building r) u) (hu : u.place = .finished o)
    (hM : t.manager? r.manager = some M) : u.shift = .keep ∧ ∃ payload, o = .panicked payload ∧
      (t.product? M.factory = some (.panics payload) ∨ payload = sinkPayload ∨
        t.product? M.factory = none) := by
  cases h with
  | built | buildFailed => cases hu
  | buildFailedCrash =>
    cases hu
    exact ⟨rfl, _, rfl, .inr (.inl rfl)⟩
  | @buildCrash _ M₀ _ payload _ hm₀ hb =>
    cases hu
    obtain rfl := Option.some.inj (hm₀.symm.trans hM)
    refine ⟨rfl, payload, rfl, ?_⟩
    obtain ⟨c, lines, hc, -⟩ | ⟨e, lines, he, -⟩ | ⟨payload', hp', hcause⟩ := build_product hb
    · cases hc
    · cases he
    · cases hp'
      obtain hnone | hpanics | ⟨hsink, -⟩ := hcause
      · exact .inr (.inr hnone)
      · exact .inl hpanics
      · exact .inr (.inl hsink)

/-- **A builder that comes to grief loses its slot for good.** -/
theorem Opens.losesSlot (h : Opens invoke s i m purpose timeout moves t)
    (hm : t.move invoke mv = some t') (hp : t.placeOf i = .building r)
    (ho : t'.placeOf i = .finished o) (hM : s.manager? m = some M)
    {N : Manager σ} (hN : t.manager? m = some N) (hM' : t'.manager? m = some M') :
    LosesSlot invoke s t t' i m (.begin i (.acquire m purpose timeout) :: moves) mv M N M' o := by
  have hs := h.reaches
  have hreq := h.request?
  rw [hp] at hreq
  obtain rfl : r.manager = m := (Option.some.inj hreq) ▸ rfl
  obtain ⟨hmv, u, hi, hu, hf, hplace⟩ | ⟨-, hplace | ⟨r', hr', -⟩⟩ := move_cases hm i
  case inr.inl =>
    rw [hplace, hp] at ho
    cases ho
  case inr.inr =>
    rw [hp] at hr'
    cases hr'
  have hlook := hs.registered.manager? hu hf r.manager
  have hbuilds := hf.total hi (steady_builds r.manager) rfl
  have hholds := hf.total hi (steady_holds r.manager) rfl
  have hlent : total (Place.holds r.manager) t.places + total (Place.builds r.manager) t.places ≤
    N.stock.active := (hs.bounded hN fun _ => false).lent
  rw [hN, hM'] at hlook
  rw [hp] at hu hbuilds hholds
  rw [ho] at hplace
  rw [← hplace] at hbuilds hholds
  simp only [Place.builds, Place.holds, if_true] at hbuilds hholds
  obtain ⟨chosen, rfl, hopen⟩ | ⟨hasleep, -⟩ := hu.opens rfl
  case inr => cases hasleep
  obtain ⟨hshift, hgrief⟩ := hopen.grief hplace.symm hN
  -- the manager is left as it was, with the slot still taken
  rw [hshift] at hlook
  obtain rfl : M' = N := Option.some.inj hlook
  refine ⟨?_, hgrief, fun later v N' hlater hN' => ?_⟩
  · have hslot := h.books hM hN
    rw [hp, Place.builds, if_pos rfl] at hslot
    rw [editsBut_append h.run, editsBut_own hm hmv, List.append_nil]
    exact hslot
  · have hover : Overdrawn r.manager t' := by
      intro N hN
      obtain rfl := Option.some.inj (hM'.symm.trans hN)
      omega
    exact hover.run (hs.move hm) ((hs.move hm).registered.not_fresh hM') hlater N' hN'

/-- **Opening a context in vain leaves nothing behind**, unless the caller comes to grief.  Take a
caller that opens a context, with or without a time limit, to hold it or to call a hook, on whatever
run and whatever others do meanwhile, and that ends without one.  If it ends with an error, then the
books of the manager are what the others have made of them since it began, the error is the
manager's refusal, the time limit or the factory's own error, and a slot that it had is free for a
sleeper that it wakes, or for whoever comes first.  But if it was building when it came to grief,
then the books have one more slot taken than the others have taken, and that slot is never free
again. -/
theorem Opens.in_vain (h : Opens invoke s i m purpose timeout moves t)
    (hm : t.move invoke mv = some t') (ho : t'.placeOf i = .finished o) :
    ∃ M N M', s.manager? m = some M ∧ t.manager? m = some N ∧ t'.manager? m = some M' ∧
      (∀ e, o = .failed e → LeavesNothing invoke s t t' i m timeout
        (.begin i (.acquire m purpose timeout) :: moves) mv M N M' e) ∧
      ∀ r, t.placeOf i = .building r → LosesSlot invoke s t t' i m
        (.begin i (.acquire m purpose timeout) :: moves) mv M N M' o := by
  have hs := h.reaches
  have hreq := h.request?
  obtain ⟨M, hM⟩ := h.manager?_start
  obtain ⟨N, hN⟩ := h.manager?
  obtain ⟨M', hM'⟩ := manager?_of_uses hs.registered hm hN
    (mem_places_of_placeOf rfl (not_finished_of_request? hreq)) (uses_of_request? hreq)
  refine ⟨M, N, M', hM, hN, hM', ?_, fun r hp => h.losesSlot hm hp ho hM hN hM'⟩
  rintro e rfl
  obtain ⟨hmv, u, -, hu, hf, hplace⟩ | ⟨-, hplace | ⟨r', -, hplace⟩⟩ := move_cases hm i
  case inr.inl =>
    rw [← hplace, ho] at hreq
    cases hreq
  case inr.inr =>
    rw [ho] at hplace
    cases hplace
  have hlook := hs.registered.manager? hu hf m
  rw [hN, hM'] at hlook
  rw [ho] at hplace
  obtain ⟨chosen, rfl, hopen⟩ | ⟨-, -, hasks⟩ := hu.opens hreq
  case inr =>
    rw [hasks] at hplace
    cases hplace
  refine ⟨?_, h.denied hN hopen hplace.symm, fun hpos => ?_⟩
  · rw [editsBut_append h.run, editsBut_own hm hmv, List.append_nil]
    have hfree := hopen.books_own (fun r hr => by
      rw [hreq] at hr
      exact (Option.some.inj hr) ▸ rfl) hN hlook.symm (h.books hM hN) (.inr ⟨e, hplace.symm⟩)
    rw [← hplace] at hfree
    exact hfree
  · generalize hp : t.placeOf i = p at hopen hreq hpos
    cases hopen with
    | gaveUp =>
      obtain rfl := Option.some.inj hreq
      exact hs.givenUp hm hmv hp hN hM'
    | lent | counted => exact absurd hplace.symm (served_ne_finished _ _ _)
    | buildFailedCrash | buildCrash | countedCrash => cases hplace
    | built | buildFailed => cases hplace
    | _ => cases hpos

/-- A factory that comes to `first` when it is asked for the first time, and then always loads a
script. -/
def hapless (first : Product Unit) : Factory Unit where
  name := "hapless"
  product n := if n = 0 then first else .loaded "hapless" () []

def notYet : Error := .script "hapless" (.raised "not yet")

/-- The hypotheses are satisfiable: one caller reserves the slot of a pool for one, another one
falls asleep, the factory fails, and the slot goes to the sleeper. -/
theorem in_vain_failed_build :
    let moves : List (Move Unit) :=
      [.run 1 0, .begin 2 (.acquire ⟨1⟩ .hold none), .run 2 0, .run 1 0]
    ∃ (s t t' : State Unit) (M N M' : Manager Unit),
      Opens inert s 1 ⟨1⟩ .hold none moves t ∧ t.move inert (.run 1 2) = some t' ∧
        t'.placeOf 1 = .finished (.failed notYet) ∧ t'.placeOf 2 = .asking ⟨⟨1⟩, .hold, none⟩ ∧
          0 < (t.placeOf 1).builds ⟨1⟩ ∧ LeavesNothing inert s t t' 1 ⟨1⟩ none
            (.begin 1 (.acquire ⟨1⟩ .hold none) :: moves) (.run 1 2) M N M' notYet := by
  intro moves
  have hopens : Opens inert _ 1 ⟨1⟩ .hold none moves _ :=
    { reachable := ⟨[hapless (.failed notYet [])],
        [.begin 0 (.establish 0 (.pool ⟨0, 1, 1⟩)), .run 0 0], rfl⟩
      run := rfl
      once := by simp [moves]
      unfinished := not_finished_of_request? rfl
      underWay := Option.some_ne_none _ }
  obtain ⟨M, N, M', -, -, -, hfailed, -⟩ :=
    hopens.in_vain (show State.move inert _ (.run 1 2) = _ from rfl) rfl
  exact ⟨_, _, _, M, N, M', hopens, rfl, rfl, rfl, by decide, hfailed notYet rfl⟩

/-- **A pool of one is lost to a factory that panics once.**  Nobody else has done anything, but the
only slot counts as lent ever after, and the next opener falls asleep although nobody has a context
or builds one. -/
theorem slot_lost_to_panic :
    let moves : List (Move Unit) := [.run 1 0]
    ∃ (s t t' later : State Unit) (M M' : Manager Unit),
      Opens inert s 1 ⟨1⟩ .hold none moves t ∧ t.move inert (.run 1 0) = some t' ∧
        t'.placeOf 1 = .finished (.panicked "no memory") ∧
        s.manager? ⟨1⟩ = some M ∧ M.poisoned = false ∧ t'.manager? ⟨1⟩ = some M' ∧
        s.editsBut inert 1 ⟨1⟩ (.begin 1 (.acquire ⟨1⟩ .hold none) :: moves ++ [.run 1 0]) = [] ∧
        M.books.active = 0 ∧ M'.books.active = 1 ∧
        t'.run inert [.begin 2 (.acquire ⟨1⟩ .hold none), .run 2 0] = some later ∧
        later.placeOf 2 = .asleep ⟨⟨1⟩, .hold, none⟩ ∧
        total (Place.holds ⟨1⟩) later.places + total (Place.builds ⟨1⟩) later.places = 0 ∧
        ∀ i chosen, later.move inert (.run i chosen) = none := by
  intro moves
  have hopens : Opens inert _ 1 ⟨1⟩ .hold none moves _ :=
    { reachable := ⟨[hapless (.panics "no memory")],
        [.begin 0 (.establish 0 (.pool ⟨0, 1, 1⟩)), .run 0 0], rfl⟩
      run := rfl
      once := by simp [moves]
      unfinished := not_finished_of_request? rfl
      underWay := Option.some_ne_none _ }
  refine ⟨_, _, _, _, _, _, hopens, rfl, rfl, rfl, rfl, rfl, rfl, rfl, rfl, rfl, rfl, rfl,
    fun i chosen => ?_⟩
  match i with
  | 0 | 1 | 2 => rfl
  | i + 3 => rfl

end State
end Lending
end HookPool
