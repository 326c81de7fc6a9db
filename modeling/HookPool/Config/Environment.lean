/-
# Sizes from the environment

Three variables give sizes.  A value counts after the white space around it is taken away and has
to be a numeral of 64 bits; the first variable whose value is none is reported with the value as it
was.  A variable whose bytes are no text counts as unset.

Main statement: `sizeOf_eq_error_iff`, when a variable is reported.
-/
import HookPool.Config.Basic
import HookPool.Text.Blank
import HookPool.Text.Numeral

namespace HookPool
namespace Environment

/-- The variable that gives the number of contexts to start with. -/
def startCountVariable : String := "HOOKFS_START_COUNT"

/-- The variable that gives the most contexts lent at once. -/
def maxActiveVariable : String := "HOOKFS_MAX_ACTIVE"

/-- The variable that gives the most contexts kept idle. -/
def maxIdleVariable : String := "HOOKFS_MAX_IDLE"

/-- The size that a value denotes. -/
def size? (value : String) : Option Nat :=
  (Text.readUnsigned Text.maxWord (Text.trimChars value.toList)).toOption

/-- The size that a variable gives, if it is set. -/
def sizeOf (variable_ : String) (lookup : String → Option String) :
    Except ConfigFault (Option Nat) :=
  match lookup variable_ with
  | none => .ok none
  | some value =>
    match size? value with
    | some n => .ok (some n)
    | none => .error (.notASize variable_ value)

/-- The sizes that the environment gives. -/
def sizes (lookup : String → Option String) : Except ConfigFault Sizes := do
  let startCount ← sizeOf startCountVariable lookup
  let maxActive ← sizeOf maxActiveVariable lookup
  let maxIdle ← sizeOf maxIdleVariable lookup
  return ⟨startCount, maxActive, maxIdle⟩

/-- The sizes with the environment's on top. -/
def override (config : PoolConfig) (lookup : String → Option String) :
    Except ConfigFault PoolConfig :=
  (sizes lookup).map config.override

/-- A variable is reported exactly if it is set to a value that is no size. -/
theorem sizeOf_eq_error_iff {variable_ : String} {lookup : String → Option String}
    {fault : ConfigFault} :
    sizeOf variable_ lookup = .error fault ↔
      ∃ value, lookup variable_ = some value ∧ size? value = none ∧
        fault = .notASize variable_ value := by
  unfold sizeOf
  split
  next h => simp [h]
  next value h =>
    split
    next n hn => simp [h, hn]
    next hn => simp [h, hn, eq_comm]

end Environment
end HookPool
