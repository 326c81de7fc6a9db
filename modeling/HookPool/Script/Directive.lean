/-
# Directives of formats

A directive is a percent sign, flags, a width, a precision and a letter.  The letter says what is
written and which flags it may have; the width and the flags say how it is padded.
-/
import HookPool.Script.Value
import HookPool.Decimal.Rounded

namespace HookPool
namespace Script

/-- A directive of a format. -/
structure Directive where
  flags : List Char
  width : Nat
  precision : Option Nat
  letter : Char
  deriving Repr

namespace Directive

/-- All flags. -/
def allFlags : List Char := "-+#0 ".toList

/-- The most characters between the percent sign and the letter. -/
def maxLength : Nat := 20

/-- Up to two digits. -/
def twoDigits (cs : List Char) : List Char × List Char :=
  let digits := (cs.take 2).takeWhile Char.isDigit
  (digits, cs.drop digits.length)

/-- Splits the directive after a percent sign from the rest; nothing if it is too long. -/
def split? (cs : List Char) : Option (List Char × Char × List Char) :=
  let middle := cs.takeWhile fun c => allFlags.contains c || c.isDigit || c == '.'
  if maxLength < middle.length then none
  else
    match cs.drop middle.length with
    | letter :: rest => some (middle, letter, rest)
    | [] => some (middle, '\x00', [])

/-- Reads what stands between the percent sign and the letter: flags that the letter allows, a width
that does not begin with a zero, and a precision if the letter allows one. -/
def read? (middle : List Char) (letter : Char) (flags : List Char) (allowsPrecision : Bool) :
    Option Directive :=
  let found := middle.takeWhile flags.contains
  let rest := middle.drop found.length
  if rest.head? = some '0' then none
  else
    let (width, rest) := twoDigits rest
    let (precision, rest) :=
      match rest with
      | '.' :: after =>
        if allowsPrecision then
          let (digits, after) := twoDigits after
          (some (Number.rowValue 10 digits), after)
        else (none, rest)
      | _ => (none, rest)
    if rest.isEmpty && letter.isAlpha then
      some ⟨found, Number.rowValue 10 width, precision, letter⟩
    else none

def has (d : Directive) (flag : Char) : Bool := d.flags.contains flag

/-- Pads a text to the width: on the right, or with zeros behind its start, or on the left. -/
def pad (d : Directive) (start body : List Char) (zeros : Bool) : List Char :=
  let missing := d.width - (start.length + body.length)
  if d.has '-' then start ++ body ++ List.replicate missing ' '
  else if zeros && d.has '0' then start ++ List.replicate missing '0' ++ body
  else List.replicate missing ' ' ++ start ++ body

/-- What stands before a number. -/
def sign (d : Directive) (negative : Bool) : List Char :=
  if negative then ['-'] else if d.has '+' then ['+'] else if d.has ' ' then [' '] else []

/-- The digits of a whole number, with as many as the precision asks for. -/
def digits (d : Directive) (base n : Nat) : List Char :=
  let ds := if n = 0 ∧ d.precision = some 0 then [] else Nat.toDigits base n
  List.replicate (d.precision.getD 0 - ds.length) '0' ++ ds

/-- A whole number by `d`, `i`, `u`, `o`, `x` or `X`; the last four take it for one without a
sign. -/
def renderInt (d : Directive) (n : Int64) : List Char :=
  let zeros := d.precision.isNone
  let unsigned := n.toUInt64.toNat
  match d.letter with
  | 'u' => d.pad [] (d.digits 10 unsigned) zeros
  | 'o' =>
    let ds := d.digits 8 unsigned
    d.pad [] (if d.has '#' ∧ ds.head? ≠ some '0' then '0' :: ds else ds) zeros
  | 'x' =>
    d.pad (if d.has '#' ∧ unsigned ≠ 0 then ['0', 'x'] else []) (d.digits 16 unsigned) zeros
  | 'X' =>
    d.pad (if d.has '#' ∧ unsigned ≠ 0 then ['0', 'X'] else [])
      ((d.digits 16 unsigned).map Char.toUpper) zeros
  | _ => d.pad (d.sign (n < 0)) (d.digits 10 n.toInt.natAbs) zeros

/-- The digits of the fraction of a number in base sixteen, thirteen of them. -/
def hexFraction (n : Nat) : List Char :=
  let ds := Nat.toDigits 16 n
  List.replicate (13 - ds.length) '0' ++ ds

/-- The magnitude of a finite number in base sixteen, with a power of two. -/
def hexMagnitude (precision : Option Nat) (x : Binary64) : List Char :=
  let lead := if x.exponentField = 0 then 0 else 1
  let power : Int :=
    if x.exponentField = 0 then (if x.fractionField = 0 then 0 else -1022)
    else (x.exponentField : Int) - 1023
  let (lead, fraction) :=
    match precision with
    | none => (lead, ((hexFraction x.fractionField).reverse.dropWhile (· == '0')).reverse)
    | some p =>
      if 13 ≤ p then
        (lead, hexFraction x.fractionField ++ List.replicate (p - 13) '0')
      else
        let unit := Nat.pow 2 (4 * (13 - p))
        let rounded := Binary64.roundHalfEven (lead * Nat.pow 2 52 + x.fractionField) unit
        let ds := Nat.toDigits 16 (rounded % Nat.pow 16 p)
        (rounded / Nat.pow 16 p,
          if p = 0 then [] else List.replicate (p - ds.length) '0' ++ ds)
  let exponent := (if power < 0 then ['-'] else ['+']) ++ Nat.toDigits 10 power.natAbs
  Nat.toDigits 16 lead ++ (if fraction.isEmpty then [] else '.' :: fraction) ++ 'p' :: exponent

/-- A floating-point number by `a`, `e`, `f`, `g` or a capital of them. -/
def renderFloat (d : Directive) (x : Binary64) : List Char :=
  let start := d.sign x.isNegative
  let places := d.precision.getD 6
  let (start, body, zeros) :=
    if x.isNaN then (start, "nan".toList, false)
    else if x.isInfinite then (start, "inf".toList, false)
    else
      match d.letter.toLower with
      | 'f' => (start, Decimal.fixed x places (d.has '#'), true)
      | 'e' => (start, Decimal.scientific x places 'e' (d.has '#'), true)
      | 'g' => (start, Decimal.general x places 'e' (d.has '#'), true)
      | _ => (start ++ ['0', 'x'], hexMagnitude d.precision x, true)
  let cased (cs : List Char) := if d.letter.isUpper then cs.map Char.toUpper else cs
  d.pad (cased start) (cased body) zeros

end Directive
end Script
end HookPool
