/-
# Numbers of scripts

A number is a whole number of 64 bits, whose arithmetic wraps around, or a binary floating-point
number.  Addition, subtraction, multiplication, the floored quotient and the remainder stay whole
on whole numbers; division and powers are always floating.  A quotient is floored and a remainder
has the sign of the divisor, for both kinds.

Comparisons between the two kinds compare the exact values, never a rounded one.  A whole number
is written in decimal, a floating-point number with fourteen significant digits and with `.0` when
it would look like a whole one.
-/
import HookPool.Decimal.Rounded

namespace HookPool
namespace Script

/-- A number of a script. -/
inductive Number where
  | int (n : Int64)
  | float (x : Binary64)
  deriving DecidableEq, Repr

namespace Number

/-- The smallest whole number of 64 bits. -/
def least : Int := Int64.minValue.toInt

/-- The largest whole number of 64 bits. -/
def greatest : Int := Int64.maxValue.toInt

/-- The whole number as one of 64 bits, if it is in range. -/
def int64? (n : Int) : Option Int64 :=
  if least ≤ n ∧ n ≤ greatest then some (Int64.ofInt n) else none

/-- The number as a floating-point one. -/
def toFloat : Number → Binary64
  | .int n => Binary64.ofInt n.toInt
  | .float x => x

/-- The exact value of a floating-point number as one of 64 bits. -/
def floatToInt? (x : Binary64) : Option Int64 :=
  x.toInt?.bind int64?

/-- The exact value as a whole number of 64 bits. -/
def toInt? : Number → Option Int64
  | .int n => some n
  | .float x => floatToInt? x

/-- The largest whole number below or at `x`, if it is in range. -/
def floorToInt? (x : Binary64) : Option Int64 :=
  if x.isFinite then int64? x.floorInt else none

/-- The smallest whole number above or at `x`. -/
def ceilInt (x : Binary64) : Int :=
  -(x.neg.floorInt)

/-- The smallest whole number above or at `x`, if it is in range. -/
def ceilToInt? (x : Binary64) : Option Int64 :=
  if x.isFinite then int64? (ceilInt x) else none

/-! ## Arithmetic -/

/-- The quotient of whole numbers toward the floor; the divisor is not zero. -/
def floorDiv (a b : Int64) : Int64 :=
  Int64.ofInt (a.toInt.fdiv b.toInt)

/-- The remainder of whole numbers with the sign of the divisor, which is not zero. -/
def floorMod (a b : Int64) : Int64 :=
  Int64.ofInt (a.toInt.fmod b.toInt)

/-- The floored quotient of floating-point numbers. -/
def floatFloorDiv (a b : Binary64) : Binary64 :=
  (a.div b).floor

/-- The remainder of floating-point numbers with the sign of the divisor. -/
def floatMod (a b : Binary64) : Binary64 :=
  let r := a.remainder b
  let zero := Binary64.zero false
  let opposite := if Binary64.lt zero r then Binary64.lt b zero
    else Binary64.lt r zero && Binary64.lt zero b
  if opposite then r.add b else r

/-- The bits moved to the left, or to the right if `by_` is negative; zeros come in. -/
def shiftLeft (n by_ : Int64) : Int64 :=
  let amount := by_.toInt
  if amount ≤ -64 ∨ 64 ≤ amount then 0
  else if 0 ≤ amount then (n.toUInt64 <<< UInt64.ofNat amount.toNat).toInt64
  else (n.toUInt64 >>> UInt64.ofNat (-amount).toNat).toInt64

/-- The bits moved to the right, or to the left if `by_` is negative; zeros come in. -/
def shiftRight (n by_ : Int64) : Int64 :=
  shiftLeft n (-by_)

/-! ## Comparison -/

/-- `n < x` by exact values. -/
def intLtFloat (n : Int) (x : Binary64) : Bool :=
  if x.isNaN then false
  else if x.isInfinite then !x.isNegative
  else n < ceilInt x

/-- `n ≤ x` by exact values. -/
def intLeFloat (n : Int) (x : Binary64) : Bool :=
  if x.isNaN then false
  else if x.isInfinite then !x.isNegative
  else n ≤ x.floorInt

/-- `x < n` by exact values. -/
def floatLtInt (x : Binary64) (n : Int) : Bool :=
  if x.isNaN then false
  else if x.isInfinite then x.isNegative
  else x.floorInt < n

/-- `x ≤ n` by exact values. -/
def floatLeInt (x : Binary64) (n : Int) : Bool :=
  if x.isNaN then false
  else if x.isInfinite then x.isNegative
  else ceilInt x ≤ n

def lt : Number → Number → Bool
  | .int a, .int b => a < b
  | .int a, .float y => intLtFloat a.toInt y
  | .float x, .int b => floatLtInt x b.toInt
  | .float x, .float y => x.lt y

def le : Number → Number → Bool
  | .int a, .int b => a ≤ b
  | .int a, .float y => intLeFloat a.toInt y
  | .float x, .int b => floatLeInt x b.toInt
  | .float x, .float y => x.le y

/-- Equality of values; a NaN equals nothing. -/
def equals : Number → Number → Bool
  | .int a, .int b => a == b
  | .int a, .float y => y.toInt? == some a.toInt
  | .float x, .int b => x.toInt? == some b.toInt
  | .float x, .float y => x.equals y

/-! ## Text -/

/-- The significant digits of a floating-point number's text. -/
def floatPrecision : Nat := 14

/-- A magnitude written by `finite`, with its sign; infinities and NaNs by name. -/
def signedText (x : Binary64) (finite : Binary64 → List Char) : List Char :=
  let magnitude :=
    if x.isNaN then "nan".toList
    else if x.isInfinite then "inf".toList
    else finite x
  if x.isNegative then '-' :: magnitude else magnitude

/-- A character that a whole number's text may have. -/
def isWholeChar (c : Char) : Bool :=
  c == '-' || c.isDigit

/-- The text of a floating-point number. -/
def floatText (x : Binary64) : List Char :=
  let cs := signedText x fun x => Decimal.general x floatPrecision 'e' false
  if cs.all isWholeChar then cs ++ ['.', '0'] else cs

/-- The text of a number. -/
def text : Number → String
  | .int n => toString n.toInt
  | .float x => String.ofList (floatText x)

/-! ## Reading -/

/-- The white space of scripts. -/
def isSpace (c : Char) : Bool :=
  c == ' ' || (0x09 ≤ c.toNat && c.toNat ≤ 0x0D)

/-- The value of a hexadecimal digit. -/
def hexDigit? (c : Char) : Option Nat :=
  if c.isDigit then some (c.toNat - 48)
  else if 'a' ≤ c ∧ c ≤ 'f' then some (c.toNat - 87)
  else if 'A' ≤ c ∧ c ≤ 'F' then some (c.toNat - 55)
  else none

def isHexDigit (c : Char) : Bool :=
  (hexDigit? c).isSome

/-- The number that a row of digits of some base denotes. -/
def rowValue (base : Nat) (cs : List Char) : Nat :=
  cs.foldl (fun n c => n * base + (hexDigit? c).getD 0) 0

/-- A numeral in parts: the digits before and after the point, and the exponent. -/
structure Parts where
  whole : List Char
  fraction : List Char
  exponent : Int

/-- Splits an exponent, if `marks` begins one that has digits, from the rest. -/
def readExponent (marks : List Char) (cs : List Char) : Int × List Char :=
  match cs with
  | mark :: rest =>
    if marks.contains mark then
      let (negative, digits) :=
        match rest with
        | '+' :: r => (false, r)
        | '-' :: r => (true, r)
        | r => (false, r)
      let row := digits.takeWhile Char.isDigit
      if row.isEmpty then (0, cs)
      else
        let n : Int := rowValue 10 row
        (if negative then -n else n, digits.dropWhile Char.isDigit)
    else (0, cs)
  | [] => (0, [])

/-- Splits a floating numeral whose digits satisfy `isDigit` from the rest. -/
def readParts (isDigit : Char → Bool) (marks : List Char) (cs : List Char) :
    Option (Parts × List Char) :=
  let whole := cs.takeWhile isDigit
  let rest := cs.dropWhile isDigit
  let (fraction, rest) :=
    match rest with
    | '.' :: r => (r.takeWhile isDigit, r.dropWhile isDigit)
    | r => ([], r)
  if whole.isEmpty && fraction.isEmpty then none
  else
    let (exponent, rest) := readExponent marks rest
    some (⟨whole, fraction, exponent⟩, rest)

/-- The floating-point number of a decimal or hexadecimal numeral. -/
def Parts.value (p : Parts) (hexadecimal negative : Bool) : Binary64 :=
  let digits := p.whole ++ p.fraction
  if hexadecimal then
    Binary64.ofDyadic negative (rowValue 16 digits) (p.exponent - 4 * p.fraction.length)
  else
    Binary64.ofDecimal negative (rowValue 10 digits) (p.exponent - p.fraction.length)

/-- Splits a sign from the rest; true for a minus. -/
def readSign : List Char → Bool × List Char
  | '-' :: rest => (true, rest)
  | '+' :: rest => (false, rest)
  | rest => (false, rest)

/-- What follows the mark of a hexadecimal numeral. -/
def afterHexMark? : List Char → Option (List Char)
  | '0' :: 'x' :: rest => some rest
  | '0' :: 'X' :: rest => some rest
  | _ => none

/-- The whole number that the characters denote: hexadecimal digits wrap around, decimal ones have
to be in range. -/
def readInt? (negative : Bool) (cs : List Char) : Option Int64 :=
  match afterHexMark? cs with
  | some digits =>
    if digits.isEmpty || !digits.all isHexDigit then none
    else
      let n := Int64.ofInt (rowValue 16 digits)
      some (if negative then -n else n)
  | none =>
    if cs.isEmpty || !cs.all Char.isDigit then none
    else
      let n : Int := rowValue 10 cs
      int64? (if negative then -n else n)

/-- The floating-point number that the characters denote. -/
def readFloat? (negative : Bool) (cs : List Char) : Option Binary64 :=
  match afterHexMark? cs with
  | some digits =>
    match readParts isHexDigit ['p', 'P'] digits with
    | some (parts, []) => some (parts.value true negative)
    | _ => none
  | none =>
    match readParts Char.isDigit ['e', 'E'] cs with
    | some (parts, []) => some (parts.value false negative)
    | _ => none

/-- The number that a text denotes, with white space around it allowed. -/
def ofChars? (cs : List Char) : Option Number :=
  let trimmed := ((cs.dropWhile isSpace).reverse.dropWhile isSpace).reverse
  let (negative, magnitude) := readSign trimmed
  match readInt? negative magnitude with
  | some n => some (.int n)
  | none => (readFloat? negative magnitude).map .float

/-! ## Laws -/

theorem int64?_eq_some_iff {n : Int} {k : Int64} :
    int64? n = some k ↔ k.toInt = n := by
  unfold int64?
  split
  next h =>
    have hn : (Int64.ofInt n).toInt = n := by
      rw [least, Int64.toInt_minValue, greatest, Int64.toInt_maxValue] at h
      exact Int64.toInt_ofInt_of_le h.1 (by omega)
    constructor
    · intro hk
      simp only [Option.some.injEq] at hk
      rw [← hk, hn]
    · intro hk
      rw [← hk, Int64.ofInt_toInt]
  next h =>
    simp only [reduceCtorEq, false_iff]
    rintro rfl
    exact h ⟨k.minValue_le_toInt, k.toInt_le⟩

end Number
end Script
end HookPool
