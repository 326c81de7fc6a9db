/-
# Numbers in JSON

A number without a point or an exponent whose value fits 64 bits is read exactly; every other
number becomes a binary floating-point number.  Its digits are collected while they fit 64 bits;
the digits before the point that no longer fit raise the exponent, those after it are dropped, and
the collected whole number is then multiplied or divided by the power of ten in floating point.
A minus sign before zero, or before a value below `-2 ^ 63`, makes a floating-point number too.

`readNumber` gives the value, `skipNumber` only checks the shape.  Both take at least one character
(`readNumber_shorter`, `skipNumber_shorter`).
-/
import HookPool.Json.Text
import HookPool.Text.Numeral

namespace HookPool
namespace Json

/-- A number as it is read. -/
inductive Number where
  | whole (value : Int)
  | floating (value : Binary64)

def Number.found : Number → Found
  | .whole value => .integer value
  | .floating value => .floating value

/-- The largest power of ten below the range's end. -/
def largestPower : Nat := 308

/-- The power of ten as a floating-point number. -/
def powerOfTen (k : Nat) : Binary64 :=
  Binary64.ofDecimal false 1 k

/-- Divides by `10 ^ k`, in steps when the divisor is beyond the range. -/
def shrink (x : Binary64) (k : Nat) : Binary64 :=
  if k ≤ largestPower then x.div (powerOfTen k)
  else if x.significand = 0 then x
  else shrink (x.div (powerOfTen largestPower)) (k - largestPower)
termination_by k
decreasing_by simp only [largestPower] at *; omega

/-- `significand · 10 ^ exponent` in floating point, unless it is out of range. -/
def scaled? (significand : Nat) (exponent : Int) : Option Binary64 :=
  let x := Binary64.ofInt significand
  if exponent < 0 then some (shrink x exponent.natAbs)
  else if exponent.natAbs ≤ largestPower then
    let y := x.mul (powerOfTen exponent.natAbs)
    if y.isInfinite then none else some y
  else if significand = 0 then some x
  else none

/-- The sign applied to a magnitude. -/
def signed (positive : Bool) (x : Binary64) : Binary64 :=
  if positive then x else x.neg

/-- The number of the collected parts, found where `rest` begins. -/
def floatingNumber (positive : Bool) (significand : Nat) (exponent : Int) (rest : List Char) :
    Except Failure (Number × List Char) :=
  match scaled? significand exponent with
  | some x => .ok (.floating (signed positive x), rest)
  | none => failHere .numberOutOfRange rest

/-- The largest exponent that is read digit by digit. -/
def largestExponent : Nat := Nat.pow 2 31 - 1

/-- The exponent that the digits denote, unless it passes `largestExponent`, and what follows. -/
def exponentDigits (n : Nat) : List Char → Option Nat × List Char
  | [] => (some n, [])
  | c :: rest =>
    if c.isDigit then
      if largestExponent < n * 10 + Text.digitValue c then (none, rest)
      else exponentDigits (n * 10 + Text.digitValue c) rest
    else (some n, c :: rest)

/-- Whether an exponent begins with a minus sign, and what follows the sign. -/
def exponentSign : List Char → Bool × List Char
  | '+' :: rest => (true, rest)
  | '-' :: rest => (false, rest)
  | rest => (true, rest)

/-- Reads an exponent after its letter. -/
def readExponent (positive : Bool) (significand : Nat) (start : Int) (cs : List Char) :
    Except Failure (Number × List Char) :=
  let upward := (exponentSign cs).1
  match (exponentSign cs).2 with
  | [] => failHere .eofInValue []
  | c :: rest =>
    let following := (exponentDigits (Text.digitValue c) rest).2
    if !c.isDigit then failAtNext .invalidNumber (c :: rest)
    else match (exponentDigits (Text.digitValue c) rest).1 with
      | some n =>
        floatingNumber positive significand (if upward then start + n else start - n) following
      | none =>
        if significand ≠ 0 && upward then failHere .numberOutOfRange following
        else .ok (.floating (Binary64.zero !positive), following.dropWhile Char.isDigit)

/-- The digits after the point that still fit, with their number. -/
def fractionDigits (n places : Nat) : List Char → Nat × Nat × List Char
  | [] => (n, places, [])
  | c :: rest =>
    if c.isDigit then
      if Text.maxWord < n * 10 + Text.digitValue c then (n, places, c :: rest)
      else fractionDigits (n * 10 + Text.digitValue c) (places + 1) rest
    else (n, places, c :: rest)

/-- What follows the digits: an exponent or the end of the number. -/
def readTail (positive : Bool) (significand : Nat) (exponent : Int) (cs : List Char) :
    Except Failure (Number × List Char) :=
  match cs with
  | 'e' :: rest => readExponent positive significand exponent rest
  | 'E' :: rest => readExponent positive significand exponent rest
  | rest => floatingNumber positive significand exponent rest

/-- Reads a fraction after its point. -/
def readFraction (positive : Bool) (significand : Nat) (start : Int) (cs : List Char) :
    Except Failure (Number × List Char) :=
  let n := (fractionDigits significand 0 cs).1
  let places := (fractionDigits significand 0 cs).2.1
  let following := (fractionDigits significand 0 cs).2.2
  match following with
  | c :: rest =>
    if c.isDigit then readTail positive n (start - places) ((c :: rest).dropWhile Char.isDigit)
    else if places = 0 then failAtNext .invalidNumber (c :: rest)
    else readTail positive n (start - places) (c :: rest)
  | [] =>
    if places = 0 then failHere .eofInValue [] else readTail positive n (start - places) []

/-- The value of a row of digits without point or exponent. -/
def wholeNumber (positive : Bool) (n : Nat) : Number :=
  if positive then .whole n
  else if n = 0 || Nat.pow 2 63 < n then .floating (Binary64.ofInt n).neg
  else .whole (-n)

/-- The digits before the point that fit, how many more there are, and what follows. -/
def wholeDigits (n : Nat) : List Char → Nat × Nat × List Char
  | [] => (n, 0, [])
  | c :: rest =>
    if c.isDigit then
      if Text.maxWord < n * 10 + Text.digitValue c then
        (n, ((c :: rest).takeWhile Char.isDigit).length, (c :: rest).dropWhile Char.isDigit)
      else wholeDigits (n * 10 + Text.digitValue c) rest
    else (n, 0, c :: rest)

/-- What follows the digits before the point. -/
def afterWhole (positive : Bool) (n dropped : Nat) (cs : List Char) :
    Except Failure (Number × List Char) :=
  match cs with
  | '.' :: rest => readFraction positive n dropped rest
  | 'e' :: rest => readExponent positive n dropped rest
  | 'E' :: rest => readExponent positive n dropped rest
  | rest =>
    if dropped = 0 then .ok (wholeNumber positive n, rest)
    else floatingNumber positive n dropped rest

/-- Reads a number after its sign. -/
def readNumber (positive : Bool) : List Char → Except Failure (Number × List Char)
  | [] => failHere .eofInValue []
  | '0' :: rest =>
    match rest with
    | c :: _ => if c.isDigit then failAtNext .invalidNumber rest else afterWhole positive 0 0 rest
    | [] => afterWhole positive 0 0 []
  | c :: rest =>
    if c.isDigit then
      let digits := wholeDigits (Text.digitValue c) rest
      afterWhole positive digits.1 digits.2.1 digits.2.2
    else failAtNext .invalidNumber (c :: rest)

/-! ## The shape alone -/

/-- Passes over an exponent after its letter. -/
def skipExponent (cs : List Char) : Except Failure (List Char) :=
  match (exponentSign cs).2 with
  | [] => failHere .invalidNumber []
  | c :: rest =>
    if c.isDigit then .ok (rest.dropWhile Char.isDigit) else failAtNext .invalidNumber (c :: rest)

/-- Passes over an exponent, if there is one. -/
def skipTail (cs : List Char) : Except Failure (List Char) :=
  match cs with
  | 'e' :: rest => skipExponent rest
  | 'E' :: rest => skipExponent rest
  | rest => .ok rest

/-- Passes over a fraction after its point. -/
def skipFraction (cs : List Char) : Except Failure (List Char) :=
  match cs with
  | [] => failHere .invalidNumber []
  | c :: rest =>
    if c.isDigit then skipTail (rest.dropWhile Char.isDigit)
    else failAtNext .invalidNumber (c :: rest)

/-- What may follow the digits before the point. -/
def skipAfterWhole (cs : List Char) : Except Failure (List Char) :=
  match cs with
  | '.' :: rest => skipFraction rest
  | rest => skipTail rest

/-- Passes over a number after its sign. -/
def skipNumber : List Char → Except Failure (List Char)
  | [] => failHere .invalidNumber []
  | '0' :: rest =>
    match rest with
    | c :: _ => if c.isDigit then failAtNext .invalidNumber rest else skipAfterWhole rest
    | [] => .ok []
  | c :: rest =>
    if c.isDigit then skipAfterWhole (rest.dropWhile Char.isDigit)
    else failAtNext .invalidNumber (c :: rest)

/-! ## Length -/

theorem length_dropWhile_le {α : Type} (p : α → Bool) (xs : List α) :
    (xs.dropWhile p).length ≤ xs.length :=
  (List.dropWhile_suffix p).length_le

theorem exponentSign_length_le (cs : List Char) : (exponentSign cs).2.length ≤ cs.length := by
  unfold exponentSign
  split <;> simp

theorem exponentDigits_length_le (n : Nat) (cs : List Char) :
    (exponentDigits n cs).2.length ≤ cs.length := by
  fun_induction exponentDigits n cs with
  | case1 => simp
  | case2 => simp
  | case3 n c rest _ _ ih => simp only [List.length_cons]; omega
  | case4 => simp

theorem fractionDigits_length_le (n places : Nat) (cs : List Char) :
    (fractionDigits n places cs).2.2.length ≤ cs.length := by
  fun_induction fractionDigits n places cs with
  | case1 => simp
  | case2 => simp
  | case3 n places c rest _ _ ih => simp only [List.length_cons]; omega
  | case4 => simp

theorem wholeDigits_length_le (n : Nat) (cs : List Char) :
    (wholeDigits n cs).2.2.length ≤ cs.length := by
  fun_induction wholeDigits n cs with
  | case1 => simp
  | case2 n c rest _ _ => exact length_dropWhile_le _ _
  | case3 => simp_all; omega
  | case4 => simp

theorem floatingNumber_rest {positive : Bool} {significand : Nat} {exponent : Int}
    {cs rest : List Char} {number : Number}
    (h : floatingNumber positive significand exponent cs = .ok (number, rest)) : rest = cs := by
  unfold floatingNumber at h
  split at h
  · simp only [Except.ok.injEq, Prod.mk.injEq] at h
    exact h.2.symm
  · simp [failHere] at h

theorem readExponent_length_le {positive : Bool} {significand : Nat} {start : Int}
    {cs rest : List Char} {number : Number}
    (h : readExponent positive significand start cs = .ok (number, rest)) :
    rest.length ≤ cs.length := by
  unfold readExponent at h
  have hs := exponentSign_length_le cs
  simp only at h
  split at h
  · simp [failHere] at h
  next c tail heq =>
    have hd := exponentDigits_length_le (Text.digitValue c) tail
    rw [heq] at hs
    simp only [List.length_cons] at hs
    split at h
    · simp [failAtNext] at h
    · split at h
      · rw [floatingNumber_rest h]
        omega
      · split at h
        · simp [failHere] at h
        · simp only [Except.ok.injEq, Prod.mk.injEq] at h
          have := length_dropWhile_le Char.isDigit (exponentDigits (Text.digitValue c) tail).2
          rw [h.2] at this
          omega

theorem readTail_length_le {positive : Bool} {significand : Nat} {exponent : Int}
    {cs rest : List Char} {number : Number}
    (h : readTail positive significand exponent cs = .ok (number, rest)) :
    rest.length ≤ cs.length := by
  unfold readTail at h
  split at h
  · have := readExponent_length_le h
    simp only [List.length_cons]
    omega
  · have := readExponent_length_le h
    simp only [List.length_cons]
    omega
  · simp [floatingNumber_rest h]

theorem readFraction_length_le {positive : Bool} {significand : Nat} {start : Int}
    {cs rest : List Char} {number : Number}
    (h : readFraction positive significand start cs = .ok (number, rest)) :
    rest.length ≤ cs.length := by
  unfold readFraction at h
  have hf := fractionDigits_length_le significand 0 cs
  simp only at h
  split at h
  next c tail heq =>
    rw [heq] at hf
    split at h
    · have := readTail_length_le h
      have := length_dropWhile_le Char.isDigit (c :: tail)
      omega
    · split at h
      · simp [failAtNext] at h
      · have := readTail_length_le h
        omega
  next heq =>
    split at h
    · simp [failHere] at h
    · have := readTail_length_le h
      simp only [List.length_nil] at this
      omega

theorem afterWhole_length_le {positive : Bool} {n dropped : Nat} {cs rest : List Char}
    {number : Number} (h : afterWhole positive n dropped cs = .ok (number, rest)) :
    rest.length ≤ cs.length := by
  unfold afterWhole at h
  split at h
  · have := readFraction_length_le h
    simp only [List.length_cons]
    omega
  · have := readExponent_length_le h
    simp only [List.length_cons]
    omega
  · have := readExponent_length_le h
    simp only [List.length_cons]
    omega
  · split at h
    · simp only [Except.ok.injEq, Prod.mk.injEq] at h
      simp [h.2]
    · simp [floatingNumber_rest h]

theorem readNumber_shorter {positive : Bool} {cs rest : List Char} {number : Number}
    (h : readNumber positive cs = .ok (number, rest)) : rest.length < cs.length := by
  unfold readNumber at h
  split at h
  · simp [failHere] at h
  · split at h
    · split at h
      · simp [failAtNext] at h
      · have := afterWhole_length_le h
        simp only [List.length_cons] at *
        omega
    · have := afterWhole_length_le h
      simp only [List.length_cons, List.length_nil] at *
      omega
  next c tail _ =>
    split at h
    · have := afterWhole_length_le h
      have := wholeDigits_length_le (Text.digitValue c) tail
      simp only [List.length_cons] at *
      omega
    · simp [failAtNext] at h

theorem skipExponent_shorter {cs rest : List Char} (h : skipExponent cs = .ok rest) :
    rest.length < cs.length := by
  unfold skipExponent at h
  have hs := exponentSign_length_le cs
  split at h
  · simp [failHere] at h
  next c tail heq =>
    rw [heq] at hs
    split at h
    · simp only [Except.ok.injEq] at h
      have := length_dropWhile_le Char.isDigit tail
      rw [h] at this
      simp only [List.length_cons] at hs
      omega
    · simp [failAtNext] at h

theorem skipTail_length_le {cs rest : List Char} (h : skipTail cs = .ok rest) :
    rest.length ≤ cs.length := by
  unfold skipTail at h
  split at h
  · have := skipExponent_shorter h
    simp only [List.length_cons]
    omega
  · have := skipExponent_shorter h
    simp only [List.length_cons]
    omega
  · simp only [Except.ok.injEq] at h
    simp [h]

theorem skipAfterWhole_length_le {cs rest : List Char} (h : skipAfterWhole cs = .ok rest) :
    rest.length ≤ cs.length := by
  unfold skipAfterWhole at h
  split at h
  next rest' =>
    unfold skipFraction at h
    split at h
    · simp [failHere] at h
    next c tail =>
      split at h
      · have := skipTail_length_le h
        have := length_dropWhile_le Char.isDigit tail
        simp only [List.length_cons]
        omega
      · simp [failAtNext] at h
  · exact skipTail_length_le h

theorem skipNumber_shorter {cs rest : List Char} (h : skipNumber cs = .ok rest) :
    rest.length < cs.length := by
  unfold skipNumber at h
  split at h
  · simp [failHere] at h
  · split at h
    · split at h
      · simp [failAtNext] at h
      · have := skipAfterWhole_length_le h
        simp only [List.length_cons] at *
        omega
    · simp only [Except.ok.injEq] at h
      simp [← h]
  next c tail _ =>
    split at h
    · have := skipAfterWhole_length_le h
      have := length_dropWhile_le Char.isDigit tail
      simp only [List.length_cons]
      omega
    · simp [failAtNext] at h

end Json
end HookPool
