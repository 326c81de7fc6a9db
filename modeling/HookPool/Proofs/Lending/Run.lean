/-
# Runs

A run starts where nothing has happened yet but factories were made, and is any list of moves that
are possible one after the other.  What holds at the start and is kept by each move holds in all
states that runs lead to (`Reachable.induction`).

What may be asked of a run is also who was signalled on its way and has still to heed it
(`Watched`).

A caller comes to grief if it panics or unwinds because of a panic.  A calm run is one on which
nobody does.
-/
import HookPool.Proofs.Lending.Tally

namespace HookPool
namespace Lending

variable {σ : Type}

/-- The caller has panicked, or gives back what it has because of a panic. -/
def Place.isGrieving : Place σ → Bool
  | .finished (.panicked _) => true
  | .returning _ (.unwind _) _ | .evicting _ (.unwind _) _ => true
  | _ => false

/-- Scripts that define no hooks. -/
def inert : Invoke Unit := fun _ _ _ => { script := (), printed := [], reply? := none }

/-- A factory that always loads a script. -/
def plain : Factory Unit := { name := "plain", product := fun _ => .loaded "plain" () [] }

namespace State

/-- The state in which nothing has happened yet but factories were made. -/
def initial (factories : List (Factory σ)) : State σ := { factories }

/-- A run leads to the state. -/
def Reachable (invoke : Invoke σ) (s : State σ) : Prop :=
  ∃ factories moves, (initial factories).run invoke moves = some s

/-- A run leads to the state, and its moves have left those as signalled. -/
inductive Watched (invoke : Invoke σ) : State σ → (Nat → Bool) → Prop where
  | start (factories : List (Factory σ)) :
    Watched invoke (initial factories) fun _ => false
  | move {s t : State σ} {mv : Move σ} {before : Nat → Bool} (hs : Watched invoke s before)
    (hm : s.move invoke mv = some t) : Watched invoke t (s.signalled mv t before)

/-- Nobody has come to grief. -/
def Calm (s : State σ) : Prop :=
  ∀ p ∈ s.places, p.isGrieving = false

instance (s : State σ) : Decidable s.Calm :=
  inferInstanceAs (Decidable (∀ p ∈ s.places, _))

/-- The moves lead from a state to another one, and nobody comes to grief on the way. -/
inductive CalmRun (invoke : Invoke σ) : State σ → List (Move σ) → State σ → Prop where
  | nil {s : State σ} (hc : s.Calm) : CalmRun invoke s [] s
  | cons {s t u : State σ} {mv : Move σ} {moves : List (Move σ)} (hc : s.Calm)
    (hm : s.move invoke mv = some t) (hr : CalmRun invoke t moves u) :
    CalmRun invoke s (mv :: moves) u

section

variable {invoke : Invoke σ} {s t u : State σ} {mv : Move σ} {moves : List (Move σ)}

theorem run_cons (h : s.run invoke (mv :: moves) = some u) :
    ∃ t, s.move invoke mv = some t ∧ t.run invoke moves = some u := by
  rw [run] at h
  exact Option.bind_eq_some_iff.1 h

theorem run_one (h : s.move invoke mv = some t) : s.run invoke [mv] = some t := by
  simpa [run] using h

theorem run_append (invoke : Invoke σ) (s : State σ) (moves rest : List (Move σ)) :
    s.run invoke (moves ++ rest) = (s.run invoke moves).bind fun t => t.run invoke rest := by
  induction moves generalizing s with
  | nil => rfl
  | cons mv moves ih =>
    simp only [List.cons_append, run, Option.bind_assoc]
    exact congrArg _ (funext fun t => ih t)

theorem reachable_initial (invoke : Invoke σ) (factories : List (Factory σ)) :
    Reachable invoke (initial factories) :=
  ⟨factories, [], rfl⟩

/-- **A run goes on from a state that a run leads to.** -/
theorem Reachable.run (hs : Reachable invoke s) (h : s.run invoke moves = some t) :
    Reachable invoke t := by
  obtain ⟨factories, before, hb⟩ := hs
  exact ⟨factories, before ++ moves, by rw [run_append, hb, Option.bind_some, h]⟩

theorem Reachable.move (hs : Reachable invoke s) (h : s.move invoke mv = some t) :
    Reachable invoke t :=
  hs.run (run_one h)

/-- What each move keeps, a list of moves keeps. -/
theorem run_induction {P : State σ → Prop}
    (step : ∀ s t mv, P s → s.move invoke mv = some t → P t) :
    ∀ {moves : List (Move σ)} {s : State σ}, P s → s.run invoke moves = some t → P t
  | [], _, hs, h => Option.some.inj h ▸ hs
  | mv :: _, s, hs, h => by
    obtain ⟨t₁, ht₁, h⟩ := run_cons h
    exact run_induction step (step s t₁ mv hs ht₁) h

/-- **What holds at the start and is kept by each move holds wherever a run leads.** -/
theorem Reachable.induction {P : State σ → Prop} (hs : Reachable invoke s)
    (start : ∀ factories, P (initial factories))
    (step : ∀ s t mv, Reachable invoke s → P s → s.move invoke mv = some t → P t) : P s := by
  obtain ⟨factories, moves, h⟩ := hs
  suffices Reachable invoke s ∧ P s from this.2
  refine run_induction (P := fun s => Reachable invoke s ∧ P s) ?_
    ⟨reachable_initial invoke factories, start factories⟩ h
  rintro s t mv ⟨hs, hp⟩ hm
  exact ⟨hs.move hm, step s t mv hs hp hm⟩

/-! ## Who was signalled on a run -/

theorem Watched.reachable {signalled : Nat → Bool} (h : Watched invoke s signalled) :
    Reachable invoke s := by
  induction h with
  | start factories => exact reachable_initial invoke factories
  | move hs hm ih => exact ih.move hm

theorem Reachable.watched (h : Reachable invoke s) :
    ∃ signalled, Watched invoke s signalled := by
  refine h.induction (P := fun s => ∃ signalled, Watched invoke s signalled) ?_ ?_
  · intro factories
    exact ⟨_, .start factories⟩
  · rintro s t mv - ⟨before, hs⟩ hm
    exact ⟨_, hs.move hm⟩

/-! ## Calm runs -/

theorem CalmRun.run (h : CalmRun invoke s moves t) : s.run invoke moves = some t := by
  induction h with
  | nil hc => rfl
  | cons hc hm hr ih => simp [State.run, hm, ih]

theorem CalmRun.append {rest : List (Move σ)} (h : CalmRun invoke s moves t)
    (h' : CalmRun invoke t rest u) : CalmRun invoke s (moves ++ rest) u := by
  induction h with
  | nil hc => exact h'
  | cons hc hm hr ih => exact .cons hc hm (ih h')

theorem CalmRun.calm_start (h : CalmRun invoke s moves t) : s.Calm := by
  cases h with
  | nil hc => exact hc
  | cons hc hm hr => exact hc

theorem CalmRun.calm_end (h : CalmRun invoke s moves t) : t.Calm := by
  induction h with
  | nil hc => exact hc
  | cons hc hm hr ih => exact ih

end

end State
end Lending
end HookPool
