/-
# Decimals of a wanted precision

The two ways to round a finite binary number `m · 2 ^ q` to a decimal: to a number of places after
the point (`toPlaces`) and to a number of significant digits (`toDigits`).  Both round the exact
value, a half to the even neighbour.  `fixed`, `scientific` and `general` are the usual texts.
-/
import HookPool.Decimal.Shortest

namespace HookPool
namespace Decimal

/-- The magnitude of a finite number as a quotient. -/
def ratio (x : Binary64) : Nat × Nat :=
  Binary64.scaledBy x.significand 1 (-x.scale)

/-- The magnitude in units of `10 ^ (-places)`, rounded. -/
def toPlaces (x : Binary64) (places : Nat) : Decimal :=
  let (num, den) := ratio x
  ⟨Binary64.roundHalfEven (num * Nat.pow 10 places) den, -places⟩

/-- The magnitude rounded to `count` significant digits, with no more than `count` digits. -/
def toDigits (x : Binary64) (count : Nat) : Decimal :=
  let (num, den) := ratio x
  if num = 0 then ⟨0, 1 - count⟩
  else
    let k := leadingPower num den + 1 - count
    let rounded := Binary64.roundHalfEven (scaleTen num (-k)) (scaleTen den k)
    if rounded = Nat.pow 10 count then ⟨Nat.pow 10 (count - 1), k + 1⟩ else ⟨rounded, k⟩

/-- The digits of the text of a decimal whose exponent is not positive, with its places. -/
def placeText (d : Decimal) (keepPoint : Bool) : List Char :=
  let places := (-d.exponent).toNat
  let digits := digitText d.digits
  let padded := List.replicate (places + 1 - digits.length) '0' ++ digits
  let whole := padded.take (padded.length - places)
  if places = 0 then whole ++ (if keepPoint then ['.'] else [])
  else whole ++ ['.'] ++ padded.drop (padded.length - places)

/-- The magnitude with `places` digits after the point. -/
def fixed (x : Binary64) (places : Nat) (keepPoint : Bool) : List Char :=
  placeText (toPlaces x places) keepPoint

/-- The exponent with its sign and at least two digits. -/
def exponentText (mark : Char) (power : Int) : List Char :=
  let digits := digitText power.natAbs
  [mark, if power < 0 then '-' else '+'] ++ List.replicate (2 - digits.length) '0' ++ digits

/-- The digits of a decimal of `count` digits, padded on the left for zero. -/
def paddedDigits (d : Decimal) (count : Nat) : List Char :=
  let digits := digitText d.digits
  List.replicate (count - digits.length) '0' ++ digits

/-- The power of ten of the first of `count` digits; zero has the power zero. -/
def powerOf (d : Decimal) (count : Nat) : Int :=
  if d.digits = 0 then 0 else d.exponent + count - 1

/-- The magnitude with one digit before the point, `places` after it, and an exponent. -/
def scientific (x : Binary64) (places : Nat) (mark : Char) (keepPoint : Bool) : List Char :=
  let d := toDigits x (places + 1)
  let digits := paddedDigits d (places + 1)
  let point := if places = 0 && !keepPoint then [] else ['.']
  digits.take 1 ++ point ++ digits.drop 1 ++ exponentText mark (powerOf d (places + 1))

/-- Removes the zeros at the end of the places, and a point that ends up last. -/
def dropTrailingZeros (cs : List Char) : List Char :=
  if cs.contains '.' then
    let kept := cs.reverse.dropWhile (· == '0')
    (if kept.head? == some '.' then kept.drop 1 else kept).reverse
  else cs

/-- The magnitude with `precision` significant digits (at least one): positional if the exponent
is at least -4 and below the precision, else with an exponent.  Trailing zeros go unless
`keepZeros`. -/
def general (x : Binary64) (precision : Nat) (mark : Char) (keepZeros : Bool) : List Char :=
  let count := max precision 1
  let d := toDigits x count
  let power := powerOf d count
  let tidy (cs : List Char) := if keepZeros then cs else dropTrailingZeros cs
  if -4 ≤ power && power < count then
    tidy (placeText (toPlaces x ((count : Int) - 1 - power).toNat) keepZeros)
  else
    let digits := paddedDigits d count
    let point := if count = 1 && !keepZeros then [] else ['.']
    tidy (digits.take 1 ++ point ++ digits.drop 1) ++ exponentText mark power

end Decimal
end HookPool
