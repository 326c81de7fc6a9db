/-
# What a caller has begun and not yet ended

From the move with which a caller begins something until it has come to an outcome, it may have had
many turns, and others may have had theirs.  `Since` says so of a run: the caller has begun, has
begun nothing else since, and has not finished.  What holds at the beginning and is kept by each
move until the end holds all the way (`Since.induction`).

`gather` is what can be told of the moves of a run one by one, such as what some callers have done
on it.
-/
import Mathlib.Data.List.Induction
import HookPool.Proofs.Lending.Caller

namespace HookPool
namespace Lending

variable {σ α : Type}

namespace State

variable {invoke : Invoke σ} {s t : State σ} {mv : Move σ} {moves rest : List (Move σ)} {i : Nat}
  {operation : Operation} {tell : State σ → Move σ → State σ → List α}

/-! ## What a run tells -/

/-- What is told of each move of a run, the first one first. -/
def gather (invoke : Invoke σ) (tell : State σ → Move σ → State σ → List α) (s : State σ) :
    List (Move σ) → List α
  | [] => []
  | mv :: rest =>
    match s.move invoke mv with
    | some t => tell s mv t ++ t.gather invoke tell rest
    | none => []

theorem gather_cons (hm : s.move invoke mv = some t) :
    s.gather invoke tell (mv :: rest) = tell s mv t ++ t.gather invoke tell rest := by
  rw [gather, hm]

theorem gather_one (hm : s.move invoke mv = some t) : s.gather invoke tell [mv] = tell s mv t := by
  rw [gather_cons hm, gather, List.append_nil]

/-- **What is told of a run is told of its parts.** -/
theorem gather_append (h : s.run invoke moves = some t) :
    s.gather invoke tell (moves ++ rest) =
      s.gather invoke tell moves ++ t.gather invoke tell rest := by
  induction moves generalizing s with
  | nil =>
    obtain rfl := Option.some.inj h
    rfl
  | cons mv moves ih =>
    obtain ⟨s₁, hm, h⟩ := run_cons h
    rw [List.cons_append, gather_cons hm, gather_cons hm, ih h, List.append_assoc]

/-! ## From the beginning to the end -/

/-- **The caller has begun the operation in `s`, and has not finished in `t`.** -/
structure Since (invoke : Invoke σ) (s : State σ) (i : Nat) (operation : Operation)
    (moves : List (Move σ)) (t : State σ) : Prop where
  reachable : Reachable invoke s
  run : s.run invoke (.begin i operation :: moves) = some t
  /-- It has begun nothing else since. -/
  once : ∀ operation', .begin i operation' ∉ moves
  unfinished : ∀ o, t.placeOf i ≠ .finished o

namespace Since

theorem once_last (h : Since invoke s i operation (moves ++ [mv]) t) (operation' : Operation) :
    mv ≠ .begin i operation' := fun he =>
  h.once operation' (he ▸ List.mem_append_right _ (List.mem_singleton_self _))

theorem reaches (h : Since invoke s i operation moves t) : Reachable invoke t :=
  h.reachable.run h.run

/-- **Whoever has not finished had not done so before the last move.** -/
theorem before (h : Since invoke s i operation (moves ++ [mv]) t) :
    ∃ t₀, Since invoke s i operation moves t₀ ∧ t₀.move invoke mv = some t := by
  have hrun := h.run
  rw [← List.cons_append, run_append] at hrun
  obtain ⟨t₀, hrun₀, hlast⟩ := Option.bind_eq_some_iff.1 hrun
  obtain ⟨t₁, hm, ht⟩ := run_cons hlast
  obtain rfl := Option.some.inj ht
  exact ⟨t₀, ⟨h.reachable, hrun₀, fun operation' hmem =>
    h.once operation' (List.mem_append_left _ hmem), fun o ho =>
      h.unfinished o (finished_of_move hm h.once_last ho)⟩, hm⟩

/-- One more move, after which the caller has not finished. -/
theorem append (h : Since invoke s i operation moves t) {t' : State σ}
    (hm : t.move invoke mv = some t') (hmv : ∀ operation', mv ≠ .begin i operation')
    (ht : ∀ o, t'.placeOf i ≠ .finished o) : Since invoke s i operation (moves ++ [mv]) t' where
  reachable := h.reachable
  run := by rw [← List.cons_append, run_append, h.run, Option.bind_some, run_one hm]
  once operation' hmem := by
    rcases List.mem_append.1 hmem with hmem | hmem
    · exact h.once operation' hmem
    · exact hmv operation' (List.mem_singleton.1 hmem).symm
  unfinished := ht

/-- **What holds when a caller begins something and is kept by each move holds until it has
finished.** -/
theorem induction {P : List (Move σ) → State σ → Prop}
    (start : ∀ t, s.move invoke (.begin i operation) = some t → P [] t)
    (step : ∀ moves t mv t', Since invoke s i operation moves t → P moves t →
      t.move invoke mv = some t' → Since invoke s i operation (moves ++ [mv]) t' →
        P (moves ++ [mv]) t')
    (h : Since invoke s i operation moves t) : P moves t := by
  induction moves using List.reverseRecOn generalizing t with
  | nil =>
    obtain ⟨t₁, hm, ht⟩ := run_cons h.run
    obtain rfl := Option.some.inj ht
    exact start _ hm
  | append_singleton moves mv ih =>
    obtain ⟨t₀, h₀, hm⟩ := h.before
    exact step moves t₀ mv t h₀ (ih h₀) hm h

end Since

end State
end Lending
end HookPool
