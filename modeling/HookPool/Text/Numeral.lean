/-
# Decimal numerals with a bound

A numeral is an optional sign and one or more ASCII digits, leading zeros allowed.  It is read
from left to right, and the first fault wins: at each position a character that is no digit comes
before a value that has left the range.

Main statements: `readDigits_eq_ok_iff` says that reading succeeds exactly on digits whose value
keeps to the bound, with that value.
-/

namespace HookPool
namespace Text

/-- Why a text is no numeral of the wanted range. -/
inductive NumeralFault where
  | empty
  | invalidDigit
  | tooLarge
  | tooSmall
  deriving DecidableEq, Repr

/-- The wording of a numeral's fault. -/
def NumeralFault.message : NumeralFault → String
  | .empty => "cannot parse integer from empty string"
  | .invalidDigit => "invalid digit found in string"
  | .tooLarge => "number too large to fit in target type"
  | .tooSmall => "number too small to fit in target type"

/-- The value of an ASCII digit. -/
def digitValue (c : Char) : Nat :=
  c.toNat - '0'.toNat

/-- The number that a row of digits denotes, after the digits of `acc`. -/
def digitsValue (acc : Nat) (cs : List Char) : Nat :=
  cs.foldl (fun n c => n * 10 + digitValue c) acc

/-- Reads digits up to the end, keeping the value at most `bound`; `overflow` is the fault of a
value above it. -/
def readDigits (bound : Nat) (overflow : NumeralFault) (acc : Nat) :
    List Char → Except NumeralFault Nat
  | [] => .ok acc
  | c :: cs =>
    if !c.isDigit then .error .invalidDigit
    else if bound < acc * 10 + digitValue c then .error overflow
    else readDigits bound overflow (acc * 10 + digitValue c) cs

/-- Reads a numeral without a minus sign whose value is at most `bound`. -/
def readUnsigned (bound : Nat) : List Char → Except NumeralFault Nat
  | [] => .error .empty
  | ['+'] => .error .invalidDigit
  | '+' :: cs => readDigits bound .tooLarge 0 cs
  | cs => readDigits bound .tooLarge 0 cs

/-- Reads a numeral whose value lies between `-lower` and `upper`. -/
def readSigned (lower upper : Nat) : List Char → Except NumeralFault Int
  | [] => .error .empty
  | ['+'] => .error .invalidDigit
  | ['-'] => .error .invalidDigit
  | '+' :: cs => (readDigits upper .tooLarge 0 cs).map Int.ofNat
  | '-' :: cs => (readDigits lower .tooSmall 0 cs).map fun n => -Int.ofNat n
  | cs => (readDigits upper .tooLarge 0 cs).map Int.ofNat

/-- The largest number of 64 bits. -/
def maxWord : Nat := Nat.pow 2 64 - 1

/-- The digits never make the value smaller. -/
theorem le_digitsValue (acc : Nat) (cs : List Char) : acc ≤ digitsValue acc cs := by
  induction cs generalizing acc with
  | nil => simp [digitsValue]
  | cons c cs ih =>
    simp only [digitsValue, List.foldl_cons]
    exact Nat.le_trans (by omega) (ih (acc * 10 + digitValue c))

/-- **Reading succeeds exactly on digits within the bound,** with their value. -/
theorem readDigits_eq_ok_iff {bound : Nat} {overflow : NumeralFault} {acc n : Nat}
    {cs : List Char} (hacc : acc ≤ bound) :
    readDigits bound overflow acc cs = .ok n ↔
      (∀ c ∈ cs, c.isDigit = true) ∧ digitsValue acc cs ≤ bound ∧ n = digitsValue acc cs := by
  induction cs generalizing acc with
  | nil => simp [readDigits, digitsValue, hacc, show (acc = n) = (n = acc) from propext eq_comm]
  | cons c cs ih =>
    unfold readDigits
    split
    next h => simp_all
    next h =>
      have hc : c.isDigit = true := by simpa using h
      split
      next hb =>
        have : bound < digitsValue acc (c :: cs) :=
          Nat.lt_of_lt_of_le hb (le_digitsValue (acc * 10 + digitValue c) cs)
        simp
        omega
      next hb =>
        rw [ih (by omega)]
        simp [hc, digitsValue]

end Text
end HookPool
