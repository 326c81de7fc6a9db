/-
# The shortest decimal of a binary number

A finite number `m · 2 ^ q` is what every real number of an interval around it rounds to; the ends
of the interval belong to it if `m` is even.  The shortest decimal is the one with the fewest
digits in that interval, and of those the nearest to the number.

For one digit, two digits and so on the two neighbours of the number on that decimal grid are
tested in whole numbers.  If a point of a grid lies in the interval then so does one of the two
neighbours on that grid, so the first grid with a hit has the fewest digits.

`Decimal.ofDigits` and `positional` turn the digits into text.
-/
import HookPool.Binary64

namespace HookPool

/-- The decimal `digits · 10 ^ exponent`. -/
structure Decimal where
  digits : Nat
  exponent : Int
  deriving DecidableEq, Repr

namespace Decimal

/-- `a · 10 ^ k` and `b · 10 ^ (-k)` as whole numbers of a common unit: the first factor times the
power if it is positive. -/
def scaleTen (a : Nat) (k : Int) : Nat :=
  if 0 ≤ k then a * Nat.pow 10 k.toNat else a

/-- The number of decimal digits of `n`, zero for zero. -/
def digitCount (n : Nat) : Nat :=
  if n = 0 then 0 else (Nat.toDigits 10 n).length

/-- The power of ten of the first digit of `num / den`. -/
def leadingPower (num den : Nat) : Int :=
  let guess : Int := (digitCount num : Int) - digitCount den
  if scaleTen den guess ≤ scaleTen num (-guess) then guess else guess - 1

/-- The interval of the reals that round to `m · 2 ^ q`, in quarters of the unit `2 ^ q`: its lower
end, its upper end, and whether the ends belong to it.  Below the smallest number of a binade the
grid is twice as fine. -/
structure Interval where
  low : Nat
  high : Nat
  closed : Bool

/-- The interval of the reals that round to the magnitude of `x`. -/
def roundingInterval (x : Binary64) : Interval :=
  let m := x.significand
  let fine := x.fractionField = 0 ∧ 1 < x.exponentField
  ⟨4 * m - (if fine then 1 else 2), 4 * m + 2, m % 2 = 0⟩

/-- `candidate · 10 ^ k` lies in the interval, whose unit is `num / den`. -/
def Interval.holds (i : Interval) (num den : Nat) (candidate : Nat) (k : Int) : Bool :=
  let value := scaleTen (candidate * den) k
  let low := scaleTen (i.low * num) (-k)
  let high := scaleTen (i.high * num) (-k)
  if i.closed then low ≤ value && value ≤ high else low < value && value < high

/-- The neighbours of `4 · m` units of `num / den` on the grid of `10 ^ k`, and whether the lower
one is the nearer; of two equally near ones the even. -/
def neighbours (m num den : Nat) (k : Int) : Nat × Bool :=
  let value := scaleTen (4 * m * num) (-k)
  let step := scaleTen den k
  let lower := value / step
  let twice := 2 * (value % step)
  (lower, twice < step || (twice == step && lower % 2 == 0))

/-- Tries the grids `10 ^ k`, `10 ^ (k - 1)`, … for a decimal in the interval. -/
def search (i : Interval) (m num den : Nat) (k : Int) : Nat → Option Decimal
  | 0 => none
  | grids + 1 =>
    let (lower, lowerIsNearer) := neighbours m num den k
    let lowerHolds := 0 < lower && i.holds num den lower k
    let upperHolds := i.holds num den (lower + 1) k
    if lowerHolds && (lowerIsNearer || !upperHolds) then some ⟨lower, k⟩
    else if upperHolds then some ⟨lower + 1, k⟩
    else search i m num den (k - 1) grids

/-- Drops trailing zeros; the value stays. -/
def strip (d : Decimal) : Decimal :=
  if h : 0 < d.digits ∧ d.digits % 10 = 0 then strip ⟨d.digits / 10, d.exponent + 1⟩ else d
termination_by d.digits
decreasing_by omega

/-- The shortest decimal that rounds to the magnitude of a finite number; the nearest of those. -/
def shortest (x : Binary64) : Decimal :=
  if x.significand = 0 then ⟨0, 0⟩
  else
    -- the unit of the interval is a quarter of `2 ^ scale`
    let (num, den) := Binary64.scaledBy 1 1 (2 - x.scale)
    let m := x.significand
    let first := leadingPower (4 * m * num) den
    ((search (roundingInterval x) m num den first 17).getD ⟨m, 0⟩).strip

/-! ## Text -/

/-- The digits of a whole number. -/
def digitText (n : Nat) : List Char :=
  Nat.toDigits 10 n

/-- The decimal without an exponent, with at least one digit after the point. -/
def positional (d : Decimal) : List Char :=
  let digits := digitText d.digits
  if 0 ≤ d.exponent then digits ++ List.replicate d.exponent.toNat '0' ++ ['.', '0']
  else
    let places := (-d.exponent).toNat
    let padded := List.replicate (places + 1 - digits.length) '0' ++ digits
    padded.take (padded.length - places) ++ ['.'] ++ padded.drop (padded.length - places)

/-- The power of ten of the first digit. -/
def firstPower (d : Decimal) : Int :=
  d.exponent + (digitText d.digits).length - 1

/-- The digits with a point after the first, if there are more. -/
def mantissa (d : Decimal) : List Char :=
  match digitText d.digits with
  | [] => []
  | [c] => [c]
  | c :: cs => c :: '.' :: cs

end Decimal
end HookPool
