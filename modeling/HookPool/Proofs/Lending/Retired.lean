/-
# Which contexts a manager counts as destroyed

A manager counts the contexts that it destroys, one in each turn in which a caller discards one.
`retiredOn` lists them for a run.  On every run the counter of a manager is the length of that list
(`Retiring.run`), and no context is in it twice (`retiredOn_of_run`): each of them ends in the turn
in which it is counted, and a context ends only once.
-/
import HookPool.Proofs.Lending.Ownership

namespace HookPool
namespace Lending

variable {σ : Type}

/-- The context that the manager counts as destroyed in the next turn of the caller. -/
def Place.retires (m : ManagerId) : Place σ → List ContextId
  | .evicting k _ c => if k = m then [c.id] else []
  | .draining k _ _ (c :: _) => if k = m then [c.id] else []
  | _ => []

namespace State

variable {invoke : Invoke σ} {s t : State σ} {mv : Move σ} {moves : List (Move σ)} {i : Nat}
  {p : Place σ} {u : Upshot σ} {m : ManagerId} {M M' : Manager σ} {retired : Nat}

/-- The context that the manager counts as destroyed in a move. -/
def retires (s : State σ) (m : ManagerId) : Move σ → List ContextId
  | .run caller _ => (s.placeOf caller).retires m
  | _ => []

/-- The contexts that the manager counts as destroyed on a run, the last one first. -/
def retiredOn (invoke : Invoke σ) (m : ManagerId) (s : State σ) : List (Move σ) → List ContextId
  | [] => []
  | mv :: moves =>
    match s.move invoke mv with
    | some t => t.retiredOn invoke m moves ++ s.retires m mv
    | none => []

theorem retiredOn_cons (hm : s.move invoke mv = some t) (moves : List (Move σ)) :
    s.retiredOn invoke m (mv :: moves) = t.retiredOn invoke m moves ++ s.retires m mv := by
  rw [retiredOn, hm]

/-! ## Counting -/

theorem Turn.retires_eq (h : Turn invoke s i mv p u) (hp : s.placeOf i = p) :
    s.retires m mv = p.retires m := by
  cases h with
  | beginning h => cases h <;> rfl
  | dealing h => cases h <;> rfl
  | works => rfl
  | rousing => rfl
  | _ => rw [retires, hp]

theorem length_retires_le (m : ManagerId) (p : Place σ) :
    (p.retires m).length ≤ p.removes m := by
  cases p with
  | evicting k aim c => by_cases hk : k = m <;> simp [Place.retires, hk]
  | draining k active first rest =>
    cases rest with
    | nil => exact Nat.zero_le _
    | cons c rest => by_cases hk : k = m <;> simp [Place.retires, hk]
  | _ => exact Nat.zero_le _

/-- The counter of a manager after one was replaced by another with the same counter, or with one
more. -/
theorem destroyed_of_replaced {k : ManagerId} {M₀ M₁ : Manager σ} (hM : s.manager? m = some M)
    (hk : s.manager? k = some M₀)
    (hM' : Shift.lookUp m (some M) (.replace k (some M₁)) = some M') :
    (M₁.destroyed = M₀.destroyed → M'.destroyed = M.destroyed) ∧
      (M₁.destroyed = M₀.destroyed + 1 → M'.destroyed = M.destroyed + if k = m then 1 else 0) := by
  by_cases hkm : m = k
  · subst hkm
    obtain rfl := Option.some.inj (hM.symm.trans hk)
    obtain rfl : M₁ = M' := by simpa [Shift.lookUp] using hM'
    exact ⟨id, fun h => by rw [if_pos rfl, h]⟩
  · obtain rfl : M = M' := by simpa [Shift.lookUp, hkm] using hM'
    exact ⟨fun _ => rfl, fun _ => by rw [if_neg (Ne.symm hkm)]; rfl⟩

/-- **The counter goes up by one in each turn in which a context is discarded**, and in no other
one. -/
theorem Turn.destroyed (h : Turn invoke s i mv p u) (hM : s.manager? m = some M)
    (hM' : u.shift.lookUp m (some M) = some M') (hw : p.warms m = 0) :
    M'.destroyed = M.destroyed + (p.retires m).length := by
  cases h with
  | opening h =>
    cases h with
    | lent hm => exact (destroyed_of_replaced hM hm hM').1 rfl
    | lentCrash hm => exact (destroyed_of_replaced hM hm hM').1 rfl
    | reserved hm => exact (destroyed_of_replaced hM hm hM').1 rfl
    | counted hm => exact (destroyed_of_replaced hM hm hM').1 rfl
    | countedCrash hm => exact (destroyed_of_replaced hM hm hM').1 rfl
    | gaveUp hm => exact (destroyed_of_replaced hM hm hM').1 rfl
    | _ => obtain rfl := Option.some.inj hM'; rfl
  | givingBack h =>
    cases h with
    | kept hm => exact (destroyed_of_replaced hM hm hM').1 rfl
    | keptCrash hm => exact (destroyed_of_replaced hM hm hM').1 rfl
    | turnedAway hm => exact (destroyed_of_replaced hM hm hM').1 rfl
    | @evicted k M₀ aim c o hm =>
      rw [(destroyed_of_replaced hM hm hM').2 rfl, Place.retires]
      split <;> rfl
    | _ => obtain rfl := Option.some.inj hM'; rfl
  | stopping h =>
    cases h with
    | stopped hm => exact (destroyed_of_replaced hM hm hM').1 rfl
    | drained hm =>
      rw [(destroyed_of_replaced hM hm hM').2 rfl, Place.retires]
      split <;> rfl
    | drainCrash hm =>
      rw [(destroyed_of_replaced hM hm hM').2 rfl, Place.retires]
      split <;> rfl
    | _ => obtain rfl := Option.some.inj hM'; rfl
  | making h =>
    cases h with
    | @made k plan factory built hl =>
      have hne : m ≠ k := by
        rintro rfl
        simp at hw
      obtain rfl : M = M' := by simpa [Shift.lookUp, hne] using hM'
      rfl
    | _ => obtain rfl := Option.some.inj hM'; rfl
  | beginning h =>
    cases h with
    | @drops k M₀ o o' hm =>
      have hne : m ≠ k := by
        rintro rfl
        simp [Shift.lookUp] at hM'
      obtain rfl : M = M' := by simpa [Shift.lookUp, hne] using hM'
      rfl
    | _ => obtain rfl := Option.some.inj hM'; rfl
  | dealing h => cases h <;> (obtain rfl := Option.some.inj hM'; rfl)
  | works => obtain rfl := Option.some.inj hM'; rfl
  | rousing => obtain rfl := Option.some.inj hM'; rfl

/-- So many contexts of the manager were counted as destroyed, and none before it was made. -/
structure Retiring (retired : Nat) (s : State σ) (m : ManagerId) : Prop where
  destroyed : ∀ M, s.manager? m = some M → M.destroyed = retired
  fresh : s.Fresh m → retired = 0

theorem Retiring.move (h : Retiring retired s m) (hr : s.Registered)
    (hm : s.move invoke mv = some t) : Retiring (retired + (s.retires m mv).length) t m := by
  have hnone : s.Fresh m → s.retires m mv = [] := by
    intro hf
    cases mv with
    | run caller chosen =>
      have hle : ((s.placeOf caller).retires m).length ≤ total (Place.claims m) s.places :=
        calc ((s.placeOf caller).retires m).length
          _ ≤ (s.placeOf caller).removes m := length_retires_le m _
          _ ≤ (s.placeOf caller).claims m := Nat.le_add_left _ _
          _ ≤ total (Place.claims m) s.places := placeOf_le_total (by simp) caller
      rw [hr.claims_eq_zero hf] at hle
      exact List.length_eq_zero_iff.1 (Nat.le_zero.1 hle)
    | _ => rfl
  refine ⟨fun M' hM' => ?_, fun hf => ?_⟩
  · cases hM : s.manager? m with
    | none =>
      obtain ⟨hf, -, plan, factory, built, rfl, -⟩ := ledger_start hr hm hM hM' fun _ => false
      rw [h.fresh hf, hnone hf]
      cases plan <;> rfl
    | some M =>
      rw [← h.destroyed M hM]
      obtain ⟨i, u, hi, hu, hf⟩ | hidle := move_turn hm
      · rw [hr.manager? hu hf, hM] at hM'
        rw [hu.retires_eq rfl]
        exact hu.destroyed hM hM' (hr.warms_eq_zero hM i)
      · rw [manager?_of_managers_eq hidle.managers, hM] at hM'
        obtain rfl := Option.some.inj hM'
        obtain ⟨nanos, rfl⟩ | ⟨text, rfl⟩ := hidle.move <;> rfl
  · have hf := hf.of_move hm
    rw [h.fresh hf, hnone hf]
    rfl

theorem retiring_initial (factories : List (Factory σ)) (m : ManagerId) :
    Retiring 0 (initial factories) m where
  destroyed M h := by
    obtain ⟨_ | n⟩ := m <;> simp [State.manager?, initial] at h
  fresh _ := rfl

/-- **The counter of a manager is the number of the contexts that it has counted.** -/
theorem Retiring.run (h : Retiring retired s m) (hs : Reachable invoke s)
    (hrun : s.run invoke moves = some t) :
    Retiring (retired + (s.retiredOn invoke m moves).length) t m := by
  induction moves generalizing s retired with
  | nil => obtain rfl := Option.some.inj hrun; exact h
  | cons mv moves ih =>
    obtain ⟨t₁, hm, hrun⟩ := run_cons hrun
    have hmoved := ih (h.move hs.registered hm) (hs.move hm) hrun
    have hsum : retired + (s.retiredOn invoke m (mv :: moves)).length =
        retired + (s.retires m mv).length + (t₁.retiredOn invoke m moves).length := by
      rw [retiredOn_cons hm, List.length_append]
      omega
    rwa [hsum]

/-! ## Ends -/

/-- **Whatever is counted as destroyed ends in the same move.** -/
theorem retires_sublist (hm : s.move invoke mv = some t) (m : ManagerId) :
    ∃ new, t.ended = new ++ s.ended ∧ (s.retires m mv).Sublist new := by
  obtain ⟨i, u, hi, hu, hf⟩ | hidle := move_turn hm
  · refine ⟨_, hf.ended, ?_⟩
    rw [hu.retires_eq rfl]
    generalize s.placeOf i = p at hu
    cases hu with
    | givingBack h =>
      cases h with
      | evicted hm h =>
        rw [Place.retires]
        split
        · exact List.Sublist.refl _
        · exact List.nil_sublist _
      | _ => exact List.nil_sublist _
    | stopping h =>
      cases h with
      | drained hm =>
        rw [Place.retires]
        split
        · exact List.Sublist.refl _
        · exact List.nil_sublist _
      | drainCrash hm =>
        rw [Place.retires]
        split
        · simp
        · exact List.nil_sublist _
      | _ => exact List.nil_sublist _
    | opening h => cases h <;> exact List.nil_sublist _
    | making h => cases h <;> exact List.nil_sublist _
    | beginning h => cases h <;> exact List.nil_sublist _
    | dealing h => cases h <;> exact List.nil_sublist _
    | works => exact List.nil_sublist _
    | rousing => exact List.nil_sublist _
  · refine ⟨[], hidle.ended, ?_⟩
    obtain ⟨nanos, rfl⟩ | ⟨text, rfl⟩ := hidle.move <;> exact List.Sublist.refl _

theorem retiredOn_sublist (h : s.run invoke moves = some t) (m : ManagerId) :
    ∃ new, t.ended = new ++ s.ended ∧ (s.retiredOn invoke m moves).Sublist new := by
  induction moves generalizing s with
  | nil => exact ⟨[], by obtain rfl := Option.some.inj h; rfl, List.Sublist.refl _⟩
  | cons mv moves ih =>
    obtain ⟨t₁, hm, h⟩ := run_cons h
    obtain ⟨new, hended, hsub⟩ := retires_sublist hm m
    obtain ⟨later, hended', hsub'⟩ := ih h
    refine ⟨later ++ new, by rw [hended', hended, List.append_assoc], ?_⟩
    rw [retiredOn_cons hm]
    exact hsub'.append hsub

/-- No context ends twice. -/
theorem Reachable.nodup_ended (hs : Reachable invoke s) : s.ended.Nodup := by
  refine List.nodup_iff_count.2 fun id => ?_
  have := hs.census id
  split at this <;> omega

/-- **No context is counted as destroyed twice**, and each one that is counted has ended. -/
theorem retiredOn_of_run {factories : List (Factory σ)}
    (h : (initial factories).run invoke moves = some t) (m : ManagerId) :
    ((initial factories).retiredOn invoke m moves).Nodup ∧
      ∀ id ∈ (initial factories).retiredOn invoke m moves, id ∈ t.ended := by
  obtain ⟨new, hended, hsub⟩ := retiredOn_sublist h m
  have hnew : t.ended = new := by
    rw [hended]
    exact List.append_nil new
  rw [← hnew] at hsub
  have ht : Reachable invoke t := ⟨factories, moves, h⟩
  exact ⟨hsub.nodup ht.nodup_ended, fun id hid => hsub.subset hid⟩

end State
end Lending
end HookPool
