/-
# Arithmetic on numbers of scripts

Every operation on two numbers: on whole numbers it stays whole, except for powers and division.
Operations on bits need whole numbers, and take a floating-point number for the whole number that
it equals.
-/
import HookPool.Script.Syntax

namespace HookPool
namespace Script

/-- Why an operation on two numbers has no result. -/
inductive ArithmeticFault where
  | divideByZero
  | remainderByZero
  /-- An operation on bits has an operand that is no whole number. -/
  | notWhole
  deriving DecidableEq, Repr

namespace Arithmetic

/-- The operation is one on bits. -/
def isBitwise : Arithmetic → Bool
  | .band | .bor | .bxor | .shl | .shr => true
  | _ => false

/-- The operation on floating-point numbers, for those that are not on bits. -/
def onFloats (op : Arithmetic) (a b : Binary64) : Binary64 :=
  match op with
  | .add => a.add b
  | .sub => a.sub b
  | .mul => a.mul b
  | .mod => Number.floatMod a b
  | .pow => a.pow b
  | .div => a.div b
  | .idiv => Number.floatFloorDiv a b
  | _ => Binary64.invalid

/-- The operation on whole numbers, if it has a whole result. -/
def onInts (op : Arithmetic) (a b : Int64) : Except ArithmeticFault (Option Int64) :=
  match op with
  | .add => .ok (some (a + b))
  | .sub => .ok (some (a - b))
  | .mul => .ok (some (a * b))
  | .mod => if b = 0 then .error .remainderByZero else .ok (some (Number.floorMod a b))
  | .idiv => if b = 0 then .error .divideByZero else .ok (some (Number.floorDiv a b))
  | .pow | .div => .ok none
  | .band => .ok (some (a &&& b))
  | .bor => .ok (some (a ||| b))
  | .bxor => .ok (some (a ^^^ b))
  | .shl => .ok (some (Number.shiftLeft a b))
  | .shr => .ok (some (Number.shiftRight a b))

/-- The operation on two numbers. -/
def apply (op : Arithmetic) (a b : Number) : Except ArithmeticFault Number :=
  if op.isBitwise then
    match a.toInt?, b.toInt? with
    | some m, some n =>
      match op.onInts m n with
      | .ok (some k) => .ok (.int k)
      | .ok none => .error .notWhole
      | .error fault => .error fault
    | _, _ => .error .notWhole
  else
    match a, b with
    | .int m, .int n =>
      match op.onInts m n with
      | .ok (some k) => .ok (.int k)
      | .ok none => .ok (.float (op.onFloats a.toFloat b.toFloat))
      | .error fault => .error fault
    | a, b => .ok (.float (op.onFloats a.toFloat b.toFloat))

/-- The result of the operation on two numerals, if it can take their place: none for a division by
zero, and none for a floating-point result whose sign or kind a numeral does not show. -/
def fold? (op : Arithmetic) (a b : Number) : Option Number :=
  let divides := op = .div ∨ op = .idiv ∨ op = .mod
  if divides ∧ b.equals (.int 0) then none
  else
    match op.apply a b with
    | .ok (.int n) => some (.int n)
    | .ok (.float x) => if x.isNaN || x.equals (Binary64.zero false) then none else some (.float x)
    | .error _ => none

end Arithmetic

namespace Number

/-- The number with the opposite sign; the smallest whole number is its own opposite. -/
def negate : Number → Number
  | .int n => .int (-n)
  | .float x => .float x.neg

end Number
end Script
end HookPool
