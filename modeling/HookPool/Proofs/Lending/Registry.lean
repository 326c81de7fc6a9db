/-
# Who belongs to which manager

A context that a manager keeps, or that a caller has got from it, is stamped as the manager's own,
and nobody has anything to do with a manager that is still being made but the caller that makes it.
`Registered` says so of a state; it holds wherever a run leads (`Reachable.registered`).

The proof looks at the managers by number: a turn changes what stands under at most one number
(`Follows.manager?`), and only the end of its making puts a manager where there was none
(`Turn.replaced`).
-/
import HookPool.Proofs.Lending.Run
import HookPool.Proofs.Lending.Tally

namespace HookPool
namespace Lending

variable {σ : Type}

/-! ## Managers by number -/

/-- What stands under a number after a shift, if `old` stood there before. -/
def Shift.lookUp (k : ManagerId) (old : Option (Manager σ)) : Shift σ → Option (Manager σ)
  | .keep | .number => old
  | .replace m manager => if k = m then manager else old

namespace State

variable {invoke : Invoke σ} {s t : State σ} {mv : Move σ} {i : Nat} {p : Place σ} {u : Upshot σ}
  {k m : ManagerId} {M M' : Manager σ}

/-- The number was taken for a manager. -/
def Numbered (s : State σ) (m : ManagerId) : Prop :=
  0 < m.number ∧ m.number ≤ s.managers.length

theorem Numbered.getElem? (h : s.Numbered m) :
    s.managers[m.number - 1]? = some (s.manager? m) := by
  obtain ⟨_ | n⟩ := m
  · exact absurd h.1 (Nat.lt_irrefl 0)
  · have hlt : n < s.managers.length := h.2
    simp only [State.manager?, Nat.add_sub_cancel, List.getElem?_eq_getElem hlt, Option.join_some]

theorem numbered_of_manager? (h : s.manager? m = some M) : s.Numbered m := by
  obtain ⟨number⟩ := m
  cases number with
  | zero => simp [manager?] at h
  | succ n =>
    simp only [manager?, Option.join_eq_some_iff] at h
    have := (List.getElem?_eq_some_iff.1 h).1
    exact ⟨Nat.succ_pos n, this⟩

theorem manager?_eq_none (h : ¬s.Numbered m) : s.manager? m = none := by
  cases hm : s.manager? m with
  | none => rfl
  | some M => exact absurd (numbered_of_manager? hm) h

theorem manager?_of_append (h : t.managers = s.managers ++ [none]) (k : ManagerId) :
    t.manager? k = s.manager? k := by
  obtain ⟨number⟩ := k
  cases number with
  | zero => rfl
  | succ n =>
    simp only [manager?, h, List.getElem?_append]
    split
    · rfl
    · rw [List.getElem?_eq_none (by omega : s.managers.length ≤ n)]
      cases n - s.managers.length <;> rfl

theorem manager?_of_set {manager : Option (Manager σ)} (hm : s.Numbered m)
    (h : t.managers = s.managers.set (m.number - 1) manager) (k : ManagerId) :
    t.manager? k = if k = m then manager else s.manager? k := by
  obtain ⟨number⟩ := k
  obtain ⟨_ | n⟩ := m
  · exact absurd hm.1 (Nat.lt_irrefl 0)
  have hn : n < s.managers.length := hm.2
  cases number with
  | zero => simp [manager?]
  | succ j =>
    simp only [manager?, h, Nat.add_sub_cancel, List.getElem?_set, hn,
      if_true, ManagerId.mk.injEq, Nat.add_right_cancel_iff]
    by_cases hj : n = j
    · simp [hj]
    · simp [hj, Ne.symm hj]

/-- **What stands under a number after a turn.** -/
theorem Follows.manager? (h : s.Follows t i u)
    (hn : ∀ m manager, u.shift = .replace m manager → s.Numbered m) (k : ManagerId) :
    t.manager? k = u.shift.lookUp k (s.manager? k) := by
  have hm := h.managers
  cases hs : u.shift with
  | keep => rw [hs] at hm; exact manager?_of_managers_eq hm k
  | number => rw [hs] at hm; exact manager?_of_append hm k
  | replace m manager => rw [hs] at hm; exact manager?_of_set (hn m manager hs) hm k

/-- What comes to stand where there was nothing was put there. -/
theorem Shift.of_lookUp {shift : Shift σ} (h : shift.lookUp m none = some M) :
    shift = .replace m (some M) := by
  cases shift with
  | keep => cases h
  | number => cases h
  | replace k manager =>
    simp only [Shift.lookUp] at h
    split at h
    · subst_vars
      rfl
    · cases h

/-- **A manager is changed by a turn, or put where there was none at the end of its making.** -/
theorem Turn.replaced (h : Turn invoke s i mv p u) {manager : Option (Manager σ)}
    (hs : u.shift = .replace m manager) :
    (∃ M, s.manager? m = some M) ∨ ∃ plan factory built,
      p = .warming m plan factory built ∧ plan.startCount ≤ built.length ∧
        u.place = .finished (.made m) ∧ manager = some (firstManager plan factory built) := by
  cases h with
  | opening h => cases h <;> cases hs <;> exact .inl ⟨_, ‹_›⟩
  | givingBack h => cases h <;> cases hs <;> exact .inl ⟨_, ‹_›⟩
  | stopping h => cases h <;> cases hs <;> exact .inl ⟨_, ‹_›⟩
  | beginning h =>
    cases h with
    | drops hm hu ho => cases hs; exact .inl ⟨_, hm⟩
    | _ => cases hs
  | making h =>
    cases h with
    | made hl => cases hs; exact .inr ⟨_, _, _, rfl, hl, rfl, rfl⟩
    | _ => cases hs
  | dealing h => cases h <;> cases hs
  | works => cases hs
  | rousing => cases hs

/-- A manager goes only when it is dropped. -/
theorem Turn.dropped (h : Turn invoke s i mv p u) (hs : u.shift = .replace m none) :
    ∃ caller, mv = .begin caller (.dropManager m) := by
  cases h with
  | beginning h =>
    cases h with
    | drops hm hu ho => cases hs; exact ⟨i, rfl⟩
    | _ => cases hs
  | opening h => cases h <;> cases hs
  | givingBack h => cases h <;> cases hs
  | stopping h => cases h <;> cases hs
  | making h => cases h <;> cases hs
  | dealing h => cases h <;> cases hs
  | works => cases hs
  | rousing => cases hs

end State

/-! ## Stamps -/

/-- The contexts in the hands of a caller are stamped as its place promises. -/
def Place.Marked : Place σ → Prop
  | .grown r c => c.owner = some r.manager
  | .running m _ _ c | .holding (.leased m) c | .evicting m _ c => c.owner = some m
  | .returning m aim c => aim = .close ∨ c.owner = some m
  | .draining m _ _ rest => ∀ c ∈ rest, c.owner = some m
  | .warming m plan _ built =>
    (∀ c ∈ built, c.owner = some m) ∧ built.length ≤ plan.startCount ∧
      ∀ config, plan = .pool config → config.Valid
  | _ => True

/-- The caller makes the manager. -/
@[simp] def Place.warms (k : ManagerId) : Place σ → Nat
  | .warming m _ _ _ => if m = k then 1 else 0
  | _ => 0

/-- What the caller has to do with a manager that has been made. -/
@[simp] def Place.claims (k : ManagerId) (p : Place σ) : Nat :=
  p.waits k + p.builds k + p.holds k + p.removes k

theorem steady_warms (k : ManagerId) : Steady (Place.warms (σ := σ) k) := fun _ => rfl

theorem steady_claims (k : ManagerId) : Steady (Place.claims (σ := σ) k) := fun _ => rfl

theorem Stock.mem_put {stock : Stock σ} {c d : Context σ} (h : d ∈ (stock.put c).contexts) :
    d = c ∨ d ∈ stock.contexts := by
  cases stock with
  | pool config active idle => simpa [Stock.put, Stock.contexts, or_comm] using h
  | single slot out => exact .inl (by simpa [Stock.put, Stock.contexts] using h)

theorem mem_firstManager {plan : Plan} {factory : Nat} {built : List (Context σ)}
    {c : Context σ} (h : c ∈ (State.firstManager plan factory built).stock.contexts) :
    c ∈ built := by
  cases plan with
  | pool config => exact h
  | single => exact List.mem_of_head? (by simpa [State.firstManager, Stock.contexts] using h)

/-- Contexts are stamped as those of the manager that keeps or lent them, and nobody has to do with
a manager that is still being made but the one caller that makes it. -/
structure State.Registered (s : State σ) : Prop where
  stocked : ∀ k M, s.manager? k = some M → ∀ c ∈ M.stock.contexts, c.owner = some k
  marked : ∀ p ∈ s.places, p.Marked
  untaken : ∀ k : ManagerId, s.managers.length < k.number →
    total (Place.claims k) s.places = 0 ∧ total (Place.warms k) s.places = 0
  unborn : ∀ k, 0 < total (Place.warms k) s.places →
    s.Numbered k ∧ s.manager? k = none ∧ total (Place.claims k) s.places = 0 ∧
      total (Place.warms k) s.places = 1

namespace State

variable {invoke : Invoke σ} {s t : State σ} {mv : Move σ} {i : Nat} {p : Place σ} {u : Upshot σ}
  {k m : ManagerId} {M M' : Manager σ}

theorem Registered.marked_placeOf (hr : s.Registered) (i : Nat) : (s.placeOf i).Marked := by
  unfold placeOf
  cases h : s.places[i]? with
  | none => trivial
  | some p => exact hr.marked p (List.mem_of_getElem? h)

/-- A caller's part is counted. -/
theorem placeOf_le_total {f : Place σ → Nat} (h0 : f (.finished .done) = 0) (i : Nat) :
    f (s.placeOf i) ≤ total f s.places := by
  unfold placeOf
  cases h : s.places[i]? with
  | none => rw [Option.getD_none, h0]; exact Nat.zero_le _
  | some p => exact le_total f (List.mem_of_getElem? h)

/-- Nobody makes a manager that is there. -/
theorem Registered.warms_eq_zero (hr : s.Registered) (hM : s.manager? k = some M) (i : Nat) :
    (s.placeOf i).warms k = 0 := by
  have hle := placeOf_le_total (s := s) (f := Place.warms k) rfl i
  refine Nat.eq_zero_of_le_zero (Nat.le_trans hle (Nat.le_of_not_lt fun hpos => ?_))
  have hnone := (hr.unborn k hpos).2.1
  rw [hM] at hnone
  cases hnone

/-- A manager that is changed has a number. -/
theorem Registered.numbered (hr : s.Registered) (hu : Turn invoke s i mv (s.placeOf i) u)
    {manager : Option (Manager σ)} (hs : u.shift = .replace m manager) : s.Numbered m := by
  obtain ⟨M, hM⟩ | ⟨plan, factory, built, hp, -⟩ := hu.replaced hs
  · exact numbered_of_manager? hM
  · refine (hr.unborn m ?_).1
    have := placeOf_le_total (s := s) (f := Place.warms m) rfl i
    rw [hp] at this
    simp only [Place.warms, if_true] at this
    omega

/-- **What stands under a number after a turn.** -/
theorem Registered.manager? (hr : s.Registered) (hu : Turn invoke s i mv (s.placeOf i) u)
    (hf : s.Follows t i u) (k : ManagerId) : t.manager? k = u.shift.lookUp k (s.manager? k) :=
  hf.manager? (fun _ _ hs => hr.numbered hu hs) k

/-! ## One turn -/

theorem marked_served {r : Request} {c : Context σ} (h : c.owner = some r.manager) :
    (r.served c).Marked := by
  unfold Request.served
  split
  · trivial
  · exact h
  · exact h

theorem Registered.owner_of_lent (hr : s.Registered) (hm : s.manager? m = some M)
    {c : Context σ} {rest : Stock σ} (ho : M.stock.offer = .lent c rest) : c.owner = some m := by
  refine hr.stocked m M hm c ?_
  rw [Stock.contexts_of_offer_lent ho]
  exact List.mem_cons_self ..

/-- **A turn leaves its caller with contexts that are stamped as its new place promises.** -/
theorem Turn.marked (hr : s.Registered) (h : Turn invoke s i mv p u) (hp : p.Marked) :
    u.place.Marked := by
  cases h with
  | opening h =>
    cases h with
    | lent hm _ _ ho => exact marked_served (hr.owner_of_lent hm ho)
    | built _ _ _ => exact rfl
    | counted _ => exact marked_served hp
    | _ => trivial
  | givingBack h =>
    cases h with
    | called _ => exact .inr hp
    | undefined _ => exact .inr hp
    | undefinedCrash _ => exact .inr hp
    | turnedAway _ ho _ _ => exact ho
    | _ => trivial
  | stopping h =>
    cases h with
    | stopped hm _ => exact hr.stocked _ _ hm
    | drained _ => exact fun c hc => hp c (List.mem_cons_of_mem _ hc)
    | _ => trivial
  | making h =>
    cases h with
    | warmed hl _ _ =>
      refine ⟨fun d hd => ?_, ?_, hp.2.2⟩
      · rcases List.mem_append.1 hd with hd | hd
        · exact hp.1 d hd
        · rw [List.mem_singleton.1 hd]
      · rw [List.length_append, List.length_singleton]
        exact hl
    | _ => trivial
  | beginning h =>
    cases h with
    | establishes hv => exact ⟨fun _ h => (nomatch h), Nat.zero_le _, hv⟩
    | _ => trivial
  | dealing h =>
    cases h with
    | closes _ => exact .inl rfl
    | releases => exact .inl rfl
    | leaves => exact .inr hp
    | unwindsLease => exact .inr hp
    | _ => trivial
  | @works tenure c script =>
    cases tenure with
    | direct => trivial
    | leased m => exact hp
  | rousing => trivial

/-- **Whatever a turn leaves with a manager is stamped as its own.** -/
theorem Turn.stocked (hr : s.Registered) (h : Turn invoke s i mv p u) (hp : p.Marked)
    (hs : u.shift = .replace m (some M')) : ∀ c ∈ M'.stock.contexts, c.owner = some m := by
  -- a stock whose contexts were at hand before
  have hsub : ∀ {M : Manager σ}, s.manager? m = some M →
      (∀ c ∈ M'.stock.contexts, c ∈ M.stock.contexts) →
        ∀ c ∈ M'.stock.contexts, c.owner = some m :=
    fun hm hc c h => hr.stocked m _ hm c (hc c h)
  cases h with
  | opening h =>
    cases h with
    | lent hm _ _ ho =>
      cases hs
      refine hsub hm fun c hc => ?_
      rw [Stock.contexts_of_offer_lent ho]
      exact List.mem_cons_of_mem _ hc
    | lentCrash hm _ _ ho =>
      cases hs
      refine hsub hm fun c hc => ?_
      rw [Stock.contexts_of_offer_lent ho]
      exact List.mem_cons_of_mem _ hc
    | reserved hm _ _ ho =>
      cases hs
      intro c hc
      rw [show (Manager.withStock _ _).stock.contexts = [] from
        (Stock.of_offer_reserved ho).2.2.1] at hc
      cases hc
    | counted hm => cases hs; exact hsub hm fun c hc => hc
    | countedCrash hm => cases hs; exact hsub hm fun c hc => hc
    | gaveUp hm => cases hs; exact hsub hm fun c hc => by simpa [Manager.withStock] using hc
    | _ => cases hs
  | givingBack h =>
    cases h with
    | kept hm ho _ _ =>
      cases hs
      intro c hc
      rcases Stock.mem_put hc with rfl | hc
      · exact ho
      · exact hr.stocked m _ hm c (by simpa using hc)
    | keptCrash hm _ _ _ =>
      cases hs
      exact hsub hm fun c hc => by simpa [Manager.withStock, Manager.poison] using hc
    | turnedAway hm _ _ _ =>
      cases hs
      exact hsub hm fun c hc => by simpa [Manager.withStock] using hc
    | evicted hm _ => cases hs; exact hsub hm fun c hc => hc
    | _ => cases hs
  | stopping h =>
    cases h with
    | stopped hm _ =>
      cases hs
      intro c hc
      rw [Manager.stock_shut, Stock.contexts_emptied] at hc
      cases hc
    | drained hm => cases hs; exact hsub hm fun c hc => hc
    | drainCrash hm => cases hs; exact hsub hm fun c hc => hc
    | _ => cases hs
  | making h =>
    cases h with
    | made _ => cases hs; exact fun c hc => hp.1 c (mem_firstManager hc)
    | _ => cases hs
  | beginning h => cases h <;> cases hs
  | dealing h => cases h <;> cases hs
  | works => cases hs
  | rousing => cases hs

theorem claims_served {r : Request} {c : Context σ} (h : c.owner = some r.manager)
    (k : ManagerId) : (r.served c).claims k = if r.manager = k then 1 else 0 := by
  unfold Request.served
  split <;> simp [h]

/-- **Nobody gets to do with a manager that is not there.** -/
theorem Turn.claims_le (hr : s.Registered) (h : Turn invoke s i mv p u) (hp : p.Marked)
    (hk : s.manager? k = none) : u.place.claims k ≤ p.claims k := by
  have hne : ∀ {m : ManagerId} {M : Manager σ}, s.manager? m = some M → m ≠ k := by
    rintro m M hm rfl
    rw [hk] at hm
    cases hm
  cases h with
  | opening h =>
    cases h with
    | lent hm _ _ ho =>
      rw [claims_served (hr.owner_of_lent hm ho), if_neg (hne hm)]
      exact Nat.zero_le _
    | counted hm =>
      rw [claims_served hp, if_neg (hne hm)]
      exact Nat.zero_le _
    | _ => simp
  | givingBack h =>
    cases h with
    | turnedAway hm _ _ _ =>
      simp [hne hm]
    | _ => simp
  | stopping h =>
    cases h with
    | stopped hm _ =>
      simp [hne hm]
    | drained hm =>
      simp [hne hm]
    | _ => simp
  | making h =>
    cases h with
    | created _ _ ho =>
      simp [ho]
    | _ => simp
  | beginning h =>
    cases h with
    | opens hm =>
      simp [hne hm]
    | _ => simp
  | dealing h =>
    cases h <;> simp
  | works => simp
  | rousing => simp

/-- **A caller makes a manager only under a number that nobody has.** -/
theorem Turn.warms_le (h : Turn invoke s i mv p u) (k : ManagerId) :
    u.place.warms k ≤ p.warms k ∨
      (u.shift = .number ∧ k = s.nextManager ∧ u.place.warms k = 1 ∧ p.warms k = 0) := by
  have hserved (r : Request) (c : Context σ) : (r.served c).warms k = 0 :=
    r.served_induction c (fun _ => rfl) (fun _ _ => rfl)
  cases h with
  | beginning h =>
    cases h with
    | establishes _ =>
      by_cases hk : s.nextManager = k
      · exact .inr ⟨rfl, hk.symm, by simp [hk], rfl⟩
      · exact .inl (by simp [hk])
    | _ => exact .inl (by simp)
  | opening h =>
    cases h with
    | lent _ _ _ _ => exact .inl (by rw [hserved]; exact Nat.zero_le _)
    | counted _ => exact .inl (by rw [hserved]; exact Nat.zero_le _)
    | _ => exact .inl (by simp)
  | givingBack h => cases h <;> exact .inl (by simp)
  | stopping h => cases h <;> exact .inl (by simp)
  | making h => cases h <;> exact .inl (by simp)
  | dealing h => cases h <;> exact .inl (by simp)
  | works => exact .inl (by simp)
  | rousing => exact .inl (by simp)

/-! ## All runs -/

theorem mem_putAt {places : List (Place σ)} {q : Place σ} (h : q ∈ putAt places i p) :
    q = p ∨ q ∈ places := by
  unfold putAt at h
  split at h
  · exact (List.mem_or_eq_of_mem_set h).symm
  · simpa [or_comm] using h

/-- Whoever is in a place after a wake-up was there before, or asks again. -/
theorem mem_apply {w : Wake} {places : List (Place σ)} {q : Place σ} (h : q ∈ w.apply places) :
    q ∈ places ∨ ∃ r, q = .asking r := by
  obtain ⟨i, hq⟩ := List.mem_iff_getElem?.1 h
  rcases of_getElem?_apply hq with hp | ⟨r, -, rfl⟩
  · exact .inl (List.mem_of_getElem? hp)
  · exact .inr ⟨r, rfl⟩

theorem registered_initial (factories : List (Factory σ)) : (initial factories).Registered where
  stocked k M h := by
    obtain ⟨_ | n⟩ := k <;> simp [State.manager?, initial] at h
  marked p hp := nomatch hp
  untaken k _ := ⟨rfl, rfl⟩
  unborn k h := by simp [total, initial] at h

/-- Numbers are only ever added, one at a time. -/
theorem Follows.length_managers (h : s.Follows t i u) :
    s.managers.length ≤ t.managers.length ∧
      (u.shift = .number → t.managers.length = s.managers.length + 1) := by
  rw [h.managers]
  cases u.shift <;> simp [shifted]

theorem Registered.idle (hr : s.Registered) (h : Idle s mv t) : t.Registered where
  stocked k M hM := hr.stocked k M (by rwa [manager?_of_managers_eq h.managers] at hM)
  marked p hp := hr.marked p (h.places ▸ hp)
  untaken k hk := by
    rw [h.places]
    exact hr.untaken k (h.managers ▸ hk)
  unborn k hk := by
    rw [h.places] at hk ⊢
    rw [manager?_of_managers_eq h.managers, Numbered, h.managers]
    exact hr.unborn k hk

/-- The number of a manager that is being made is taken and empty after a turn as before. -/
theorem Registered.unborn_turn (hr : s.Registered) (hi : i ≤ s.places.length)
    (hu : Turn invoke s i mv (s.placeOf i) u) (hf : s.Follows t i u)
    (hk : 0 < total (Place.warms k) t.places) :
    t.Numbered k ∧ t.manager? k = none ∧ total (Place.claims k) t.places = 0 ∧
      total (Place.warms k) t.places = 1 := by
  have hman := hr.manager? hu hf k
  have hclaims := hf.total hi (steady_claims k) (by simp)
  have hwarms := hf.total hi (steady_warms k) (by simp)
  obtain ⟨hlen, hnum⟩ := hf.length_managers
  rcases hu.warms_le k with hle | ⟨hs, rfl, h1, h0⟩
  · obtain ⟨hn, hnone, hcl, hone⟩ := hr.unborn k (by omega)
    have hle' := hu.claims_le hr (hr.marked_placeOf i) hnone
    refine ⟨⟨hn.1, Nat.le_trans hn.2 hlen⟩, ?_, by omega, by omega⟩
    rw [hman, hnone]
    cases hs : u.shift with
    | keep => rfl
    | number => rfl
    | replace m manager =>
      simp only [Shift.lookUp]
      split
      · rename_i hkm
        subst hkm
        -- only the caller that makes the manager could put one there, and then it is made
        obtain ⟨M, hM⟩ | ⟨plan, factory, built, hp, -, hplace, -⟩ := hu.replaced hs
        · rw [hnone] at hM
          cases hM
        · rw [hp, hplace] at hwarms
          simp at hwarms
          omega
      · rfl
  · obtain ⟨hcl, hw⟩ := hr.untaken s.nextManager (Nat.lt_succ_self _)
    have hnone : s.manager? s.nextManager = none :=
      manager?_eq_none fun h => absurd h.2 (Nat.not_succ_le_self _)
    have hle' := hu.claims_le hr (hr.marked_placeOf i) hnone
    refine ⟨⟨Nat.succ_pos _, by rw [hnum hs]; exact Nat.le_refl _⟩, ?_, by omega, by omega⟩
    rw [hman, hs]
    exact hnone

/-- **One move keeps contexts and managers registered.** -/
theorem Registered.move (hr : s.Registered) (h : s.move invoke mv = some t) : t.Registered := by
  obtain ⟨i, u, hi, hu, hf⟩ | hidle := move_turn h
  · have hp := hr.marked_placeOf i
    obtain ⟨hlen, hnum⟩ := hf.length_managers
    refine ⟨fun k M' hM' => ?_, fun q hq => ?_, fun k hk => ?_,
      fun k hk => hr.unborn_turn hi hu hf hk⟩
    · rw [hr.manager? hu hf k] at hM'
      cases hs : u.shift with
      | keep => rw [hs] at hM'; exact hr.stocked k M' hM'
      | number => rw [hs] at hM'; exact hr.stocked k M' hM'
      | replace m manager =>
        simp only [hs, Shift.lookUp] at hM'
        split at hM'
        · subst_vars
          exact hu.stocked hr hp hs
        · exact hr.stocked k M' hM'
    · rw [hf.places] at hq
      rcases mem_putAt hq with rfl | hq
      · exact hu.marked hr hp
      · rcases mem_apply hq with hq | ⟨r, rfl⟩
        · exact hr.marked q hq
        · trivial
    · obtain ⟨hcl, hw⟩ := hr.untaken k (Nat.lt_of_le_of_lt hlen hk)
      have hnone : s.manager? k = none := manager?_eq_none fun h => by
        have := h.2
        omega
      have hclaims := hf.total hi (steady_claims k) (by simp)
      have hwarms := hf.total hi (steady_warms k) (by simp)
      have hle := hu.claims_le hr hp hnone
      rcases hu.warms_le k with hle' | ⟨hs, rfl, -, -⟩
      · exact ⟨by omega, by omega⟩
      · rw [hnum hs] at hk
        exact absurd hk (Nat.lt_irrefl _)
  · exact hr.idle hidle

/-- **Contexts and managers are registered wherever a run leads.** -/
theorem Reachable.registered (hs : Reachable invoke s) : s.Registered :=
  hs.induction registered_initial fun _ _ _ _ hr h => hr.move h

/-! ## Managers that are yet to be made -/

/-- There was no manager under the number so far: the number is not taken, or was taken for one that
is being made. -/
def Fresh (s : State σ) (k : ManagerId) : Prop :=
  s.managers.length < k.number ∨ 0 < total (Place.warms k) s.places

/-- Nobody has to do with a manager that is yet to be made. -/
theorem Registered.claims_eq_zero (hr : s.Registered) (h : s.Fresh k) :
    total (Place.claims k) s.places = 0 := by
  rcases h with h | h
  · exact (hr.untaken k h).1
  · exact (hr.unborn k h).2.2.1

/-- A manager that is there is no longer to be made. -/
theorem Registered.not_fresh (hr : s.Registered) (hM : s.manager? m = some M) : ¬s.Fresh m := by
  rintro (h | h)
  · exact absurd (numbered_of_manager? hM).2 (Nat.not_le.2 h)
  · have hnone := (hr.unborn m h).2.1
    rw [hM] at hnone
    cases hnone

/-- **What is yet to be made after a move was so before it.** -/
theorem Fresh.of_move (h : s.move invoke mv = some t) (hk : t.Fresh k) : s.Fresh k := by
  obtain ⟨i, u, hi, hu, hf⟩ | hidle := move_turn h
  · obtain ⟨hlen, -⟩ := hf.length_managers
    have hwarms := hf.total hi (steady_warms k) (by simp)
    rcases hk with hk | hk
    · exact .inl (Nat.lt_of_le_of_lt hlen hk)
    · rcases hu.warms_le k with hle | ⟨-, rfl, -, -⟩
      · exact .inr (by omega)
      · exact .inl (Nat.lt_succ_self _)
  · rwa [Fresh, hidle.managers, hidle.places] at hk

end State
end Lending
end HookPool
