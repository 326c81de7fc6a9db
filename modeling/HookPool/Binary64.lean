/-
# Binary floating-point numbers of 64 bits

A number is kept as its 64 bits: the sign, eleven bits of exponent and 52 bits of fraction.  A
finite number is `m · 2 ^ q` for the pair `significand`, `scale` below, up to its sign; everything
that has to be exact (reading, printing, remainders, conversion to integers) is computed on that
pair in whole numbers.

The four operations are those of the hardware.  An operation on a NaN gives that NaN, the first
one if there are two; an operation that has no result (`0 / 0`, `∞ - ∞`) gives the NaN whose sign
bit is set.  The sign of a NaN is visible when it is printed, which is why the bits are kept.
-/

namespace HookPool

/-- A binary floating-point number of 64 bits. -/
structure Binary64 where
  bits : UInt64
  deriving DecidableEq, Repr

namespace Binary64

/-- The sign bit. -/
def isNegative (x : Binary64) : Bool :=
  x.bits >>> 63 == 1

/-- The eleven bits of the exponent. -/
def exponentField (x : Binary64) : Nat :=
  x.bits.toNat / Nat.pow 2 52 % Nat.pow 2 11

/-- The 52 bits of the fraction. -/
def fractionField (x : Binary64) : Nat :=
  x.bits.toNat % Nat.pow 2 52

/-- Neither infinite nor a NaN. -/
def isFinite (x : Binary64) : Bool :=
  x.exponentField != 2047

def isNaN (x : Binary64) : Bool :=
  x.exponentField == 2047 && x.fractionField != 0

def isInfinite (x : Binary64) : Bool :=
  x.exponentField == 2047 && x.fractionField == 0

/-- The whole number `m` of the magnitude `m · 2 ^ q` of a finite number. -/
def significand (x : Binary64) : Nat :=
  if x.exponentField = 0 then x.fractionField else x.fractionField + Nat.pow 2 52

/-- The power `q` of the magnitude `m · 2 ^ q` of a finite number. -/
def scale (x : Binary64) : Int :=
  if x.exponentField = 0 then -1074 else (x.exponentField : Int) - 1075

/-- The number whose bits below the sign are `magnitude`. -/
def ofMagnitude (negative : Bool) (magnitude : Nat) : Binary64 :=
  ⟨UInt64.ofNat (magnitude + if negative then Nat.pow 2 63 else 0)⟩

/-- The bits below the sign of an infinite number. -/
def infinityBits : Nat := 2047 * Nat.pow 2 52

def infinity (negative : Bool) : Binary64 := ofMagnitude negative infinityBits

def zero (negative : Bool) : Binary64 := ofMagnitude negative 0

/-- The NaN that an operation without a result gives: its sign bit is set. -/
def invalid : Binary64 := ofMagnitude true (infinityBits + Nat.pow 2 51)

/-- The bits with the sign turned. -/
def neg (x : Binary64) : Binary64 :=
  ⟨x.bits ^^^ 0x8000000000000000⟩

/-- The bits without the sign. -/
def abs (x : Binary64) : Binary64 :=
  ⟨x.bits &&& 0x7FFFFFFFFFFFFFFF⟩

/-! ## Rounding a quotient -/

/-- The whole number nearest to `num / den`; a half goes to the even neighbour. -/
def roundHalfEven (num den : Nat) : Nat :=
  let whole := num / den
  let twice := 2 * (num % den)
  if twice < den then whole
  else if den < twice then whole + 1
  else whole + whole % 2

/-- `num / den` and `num * 2 ^ (-q) / den` have the same value; the second is a quotient of whole
numbers for either sign of `q`. -/
def scaledBy (num den : Nat) (q : Int) : Nat × Nat :=
  if 0 ≤ q then (num, den * Nat.pow 2 q.toNat) else (num * Nat.pow 2 (-q).toNat, den)

/-- The scale at which the quotient has 53 bits, or the smallest scale there is. -/
def quotientScale (num den : Nat) : Int :=
  let low : Int := max (-1074) ((Nat.log2 num : Int) - Nat.log2 den - 53)
  let (n, d) := scaledBy num den low
  if d * Nat.pow 2 53 ≤ n then low + 1 else low

/-- The number nearest to `num / den`, ties to the even significand. -/
def ofRatio (negative : Bool) (num den : Nat) : Binary64 :=
  if num = 0 then zero negative
  else
    let q := quotientScale num den
    let (n, d) := scaledBy num den q
    let magnitude := (q + 1074).toNat * Nat.pow 2 52 + roundHalfEven n d
    ofMagnitude negative (min magnitude infinityBits)

/-- The number nearest to `m · 2 ^ q`. -/
def ofDyadic (negative : Bool) (m : Nat) (q : Int) : Binary64 :=
  if m = 0 then zero negative
  else if 1024 < (Nat.log2 m : Int) + q then infinity negative
  else if (Nat.log2 m : Int) + q < -1080 then zero negative
  else
    let (n, d) := scaledBy m 1 (-q)
    ofRatio negative n d

/-- The number nearest to `m · 10 ^ k`. -/
def ofDecimal (negative : Bool) (m : Nat) (k : Int) : Binary64 :=
  if m = 0 then zero negative
  else
    -- `m < 10 ^ size`, so that a quotient far outside the range is never formed
    let size : Int := Nat.log2 m / 3 + 1
    if 400 < k then infinity negative
    else if size + k < -400 then zero negative
    else if 0 ≤ k then ofRatio negative (m * Nat.pow 10 k.toNat) 1
    else ofRatio negative m (Nat.pow 10 (-k).toNat)

/-- The number nearest to a whole number. -/
def ofInt (n : Int) : Binary64 :=
  ofDyadic (n < 0) n.natAbs 0

/-! ## Exact values -/

/-- The value of a finite number that is whole. -/
def toInt? (x : Binary64) : Option Int :=
  if !x.isFinite then none
  else
    let sign : Int := if x.isNegative then -1 else 1
    if 0 ≤ x.scale then some (sign * (x.significand * Nat.pow 2 x.scale.toNat : Nat))
    else
      let unit := Nat.pow 2 (-x.scale).toNat
      if x.significand % unit = 0 then some (sign * (x.significand / unit : Nat)) else none

/-- The largest whole number that is at most a finite number. -/
def floorInt (x : Binary64) : Int :=
  let sign : Int := if x.isNegative then -1 else 1
  if 0 ≤ x.scale then sign * (x.significand * Nat.pow 2 x.scale.toNat : Nat)
  else (sign * x.significand).fdiv (Nat.pow 2 (-x.scale).toNat)

/-- The remainder of the magnitudes, with the sign of `x`. -/
def remainder (x y : Binary64) : Binary64 :=
  if x.isNaN then x
  else if y.isNaN then y
  else if x.isInfinite || y.significand == 0 && y.isFinite then invalid
  else if y.isInfinite then x
  else
    let q := min x.scale y.scale
    let a := x.significand * Nat.pow 2 (x.scale - q).toNat
    let b := y.significand * Nat.pow 2 (y.scale - q).toNat
    ofDyadic x.isNegative (a % b) q

/-! ## Operations -/

/-- The hardware's number of the same bits. -/
def toFloat (x : Binary64) : Float :=
  Float.ofBits x.bits

/-- A result of the hardware. -/
def ofFloat (f : Float) : Binary64 :=
  if f.isNaN then invalid else ⟨f.toBits⟩

/-- A hardware operation on two numbers; a NaN goes through. -/
def operate (op : Float → Float → Float) (x y : Binary64) : Binary64 :=
  if x.isNaN then x
  else if y.isNaN then y
  else ofFloat (op x.toFloat y.toFloat)

def add : Binary64 → Binary64 → Binary64 := operate (· + ·)
def sub : Binary64 → Binary64 → Binary64 := operate (· - ·)
def mul : Binary64 → Binary64 → Binary64 := operate (· * ·)
def div : Binary64 → Binary64 → Binary64 := operate (· / ·)

/-- The power; the square is the product. -/
def pow (x y : Binary64) : Binary64 :=
  if y.toInt? == some 2 then mul x x
  else if y.toInt? == some 0 || x == ofInt 1 then ofInt 1
  else operate Float.pow x y

/-- The largest whole number that is at most `x`, as a number of the same kind. -/
def floor (x : Binary64) : Binary64 :=
  if x.isFinite then ofFloat x.toFloat.floor else x

/-- The smallest whole number that is at least `x`, as a number of the same kind. -/
def ceil (x : Binary64) : Binary64 :=
  if x.isFinite then ofFloat x.toFloat.ceil else x

/-- The comparison of the hardware: false when one side is a NaN. -/
def lt (x y : Binary64) : Bool := x.toFloat < y.toFloat
def le (x y : Binary64) : Bool := x.toFloat ≤ y.toFloat
def equals (x y : Binary64) : Bool := x.toFloat == y.toFloat

end Binary64
end HookPool
