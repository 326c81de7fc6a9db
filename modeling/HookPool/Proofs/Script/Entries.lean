/-
# What scripts have for hooks

The table of a loaded script has a function for a hook, or nothing, or something that is neither.
As long as lookups have no side effects (`IsPassive`), both ways to the table come to that:

| the entry | looking hooks up | calling the hook |
|---|---|---|
| nothing | passes over it | is not implemented, and nothing is run |
| a function | finds the hook | is what the function comes to, called with the table |
| anything else | fails with an error of the hook | fails with the same error |

Main statements: `IsPassive.definedAmong_append`, `IsPassive.replies`.
-/
import HookPool.Proofs.Lending.Course
import HookPool.Proofs.Results
import HookPool.Script.Invocation

namespace HookPool
namespace Script
namespace Interpreter

variable {ω σ τ φ : Type} {ip : Interpreter ω σ τ φ} {c c' : Loaded σ τ} {hook : String}
  {found : Option φ} {fault : HookFault} {arguments : List HookArg}

/-! ## Entries -/

/-- Lookups in the table of hooks have no side effects, unless they fail. -/
def IsPassive (ip : Interpreter ω σ τ φ) (c : Loaded σ τ) : Prop :=
  ∀ hook v s, ip.get c.store c.hooks hook = (.ok v, s) → s = c.store

/-- Two loaded scripts have the same for every hook: a function, nothing, or the same fault. -/
def Alike (ip : Interpreter ω σ τ φ) (c c' : Loaded σ τ) : Prop :=
  ∀ hook, (ip.entry c hook).map Option.isSome = (ip.entry c' hook).map Option.isSome

theorem lookUp_eq : ip.lookUp c hook = ((ip.entry c hook).mapError (Error.hook hook),
    ⟨(ip.get c.store c.hooks hook).2, c.hooks⟩) := rfl

/-- **A lookup that does not fail leaves the script alone.** -/
theorem IsPassive.lookUp_ok (hc : ip.IsPassive c) (h : ip.entry c hook = .ok found) :
    ip.lookUp c hook = (.ok found, c) := by
  have hstore : (ip.get c.store c.hooks hook).2 = c.store := by
    rcases hget : ip.get c.store c.hooks hook with ⟨message | v, s⟩
    · rw [entry, hget] at h
      cases h
    · exact hc hook v s hget
  rw [lookUp_eq, h, hstore]
  rfl

/-- A lookup that finds something else than a function leaves the script alone, too. -/
theorem IsPassive.lookUp_error (hc : ip.IsPassive c) (h : ip.entry c hook = .error fault) :
    ∃ c', ip.lookUp c hook = (.error (.hook hook fault), c') ∧
      ∀ type, fault = .notAFunction type → c' = c := by
  rw [lookUp_eq, h]
  refine ⟨_, rfl, ?_⟩
  rintro type rfl
  rcases hget : ip.get c.store c.hooks hook with ⟨message | v, s⟩
  · rw [entry, hget] at h
    cases h
  · rw [hc hook v s hget]

/-- What a call comes to whose hook gives a reply. -/
def outcomeOf (hook : String) : Except HookFault HookReply → Lending.Outcome
  | .ok reply => .replied reply
  | .error fault => .failed (.hook hook fault)

/-- What a call of a hook comes to on a loaded script. -/
inductive Replies (ip : Interpreter ω σ τ φ) (c : Loaded σ τ) (hook : String)
    (arguments : List HookArg) : Lending.Outcome → Prop
  /-- A hook that the script does not have is not implemented, and nothing is run. -/
  | missing (hentry : ip.entry c hook = .ok none)
      (hidle : ip.invoke c hook arguments = ⟨c, [], none⟩) :
      Replies ip c hook arguments (.replied .notImplemented)
  /-- A function is called with the table of hooks and the arguments. -/
  | called {f : φ} (hentry : ip.entry c hook = .ok (some f)) :
      Replies ip c hook arguments (outcomeOf hook
        (ip.call c.store f (.table c.hooks :: arguments.map .ofArgument)).1.reply)
  /-- Anything else is an error. -/
  | faulty {fault : HookFault} (hentry : ip.entry c hook = .error fault) :
      Replies ip c hook arguments (.failed (.hook hook fault))

/-- **A call of a hook goes by its entry.** -/
theorem IsPassive.replies (hc : ip.IsPassive c) (hlines : ip.takeLines c = ([], c)) (hook : String)
    (arguments : List HookArg) :
    Replies ip c hook arguments (ip.invoke c hook arguments).outcome := by
  cases hentry : ip.entry c hook with
  | error fault =>
    obtain ⟨c', hlookUp, -⟩ := hc.lookUp_error hentry
    have houtcome : (ip.invoke c hook arguments).outcome = .failed (.hook hook fault) := by
      simp only [invoke, reply?, hlookUp]
      rfl
    rw [houtcome]
    exact .faulty hentry
  | ok found =>
    have hlookUp := hc.lookUp_ok hentry
    cases found with
    | none =>
      have hidle : ip.invoke c hook arguments = ⟨c, [], none⟩ := by
        simp only [invoke, reply?, hlookUp, hlines]
      rw [hidle]
      exact .missing hentry hidle
    | some f =>
      have houtcome : (ip.invoke c hook arguments).outcome = outcomeOf hook
          (ip.call c.store f (.table c.hooks :: arguments.map .ofArgument)).1.reply := by
        simp only [invoke, reply?, hlookUp, callAsMethod]
        cases (ip.call c.store f (.table c.hooks :: arguments.map .ofArgument)).1.reply <;> rfl
      rw [houtcome]
      exact .called hentry

/-! ## Scripts that are loaded again and again -/

theorem Alike.refl (ip : Interpreter ω σ τ φ) (c : Loaded σ τ) : ip.Alike c c := fun _ => rfl

theorem Alike.missing (h : ip.Alike c c') (hentry : ip.entry c hook = .ok none) :
    ip.entry c' hook = .ok none := by
  have hsame := h hook
  rw [hentry] at hsame
  obtain ⟨found, hfound, hnone⟩ := map_eq_ok_iff.1 hsame.symm
  cases found with
  | none => exact hfound
  | some f => cases hnone

theorem Alike.faulty (h : ip.Alike c c') (hentry : ip.entry c hook = .error fault) :
    ip.entry c' hook = .error fault := by
  have hsame := h hook
  rw [hentry] at hsame
  exact map_eq_error_iff.1 hsame.symm

theorem Alike.defined (h : ip.Alike c c') {f : φ} (hentry : ip.entry c hook = .ok (some f)) :
    ∃ f', ip.entry c' hook = .ok (some f') := by
  have hsame := h hook
  rw [hentry] at hsame
  obtain ⟨found, hfound, hsome⟩ := map_eq_ok_iff.1 hsame.symm
  obtain ⟨f', rfl⟩ := Option.isSome_iff_exists.1 hsome
  exact ⟨f', hfound⟩

end Interpreter
end Script
end HookPool
