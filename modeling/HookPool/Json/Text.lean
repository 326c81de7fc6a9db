/-
# Strings in JSON

A string is read after its opening quote.  `readString` gives its characters; escapes have to
denote characters, so a surrogate must be one half of a pair.  `skipString` only finds its end and
takes any escape of the right shape.  Both refuse control characters.

Main statements: `readEscape_shorter` and `skipEscape_shorter`, by which the two readers come to an
end, and `readString_shorter`, `skipString_shorter`: a string takes at least its closing quote.
-/
import HookPool.Json.Problem

namespace HookPool
namespace Json

/-- Fails where `rest` begins. -/
def failHere {α : Type} (problem : Problem) (rest : List Char) : Except Failure α :=
  .error ⟨problem, byteLength rest⟩

/-- Fails one byte after the place where `rest` begins, or at the end. -/
def failAtNext {α : Type} (problem : Problem) (rest : List Char) : Except Failure α :=
  .error ⟨problem, byteLength rest - 1⟩

/-- The white space of JSON. -/
def isBlank (c : Char) : Bool :=
  c == ' ' || c == '\n' || c == '\t' || c == '\r'

def skipBlank (cs : List Char) : List Char :=
  cs.dropWhile isBlank

/-- The value of a hexadecimal digit. -/
def hexValue? (c : Char) : Option Nat :=
  if c.isDigit then some (c.toNat - '0'.toNat)
  else if 'a' ≤ c ∧ c ≤ 'f' then some (c.toNat - 'a'.toNat + 10)
  else if 'A' ≤ c ∧ c ≤ 'F' then some (c.toNat - 'A'.toNat + 10)
  else none

/-- The value of four hexadecimal digits. -/
def hexQuad? (a b c d : Char) : Option Nat := do
  let a ← hexValue? a
  let b ← hexValue? b
  let c ← hexValue? c
  let d ← hexValue? d
  return ((a * 16 + b) * 16 + c) * 16 + d

/-- Reads four hexadecimal digits. -/
def readHex (rest : List Char) : Except Failure (Nat × List Char) :=
  if byteLength rest < 4 then .error ⟨.eofInString, 0⟩
  else match rest with
    | a :: b :: c :: d :: rest' =>
      match hexQuad? a b c d with
      | some n => .ok (n, rest')
      | none => .error ⟨.invalidEscape, byteLength rest - 4⟩
    | _ => .error ⟨.invalidEscape, byteLength rest - 4⟩

/-- The second half of a pair has to follow the first half `high`. -/
def readLowSurrogate (high : Nat) : List Char → Except Failure (Char × List Char)
  | [] => failHere .eofInString []
  | '\\' :: [] => failHere .eofInString []
  | '\\' :: 'u' :: rest =>
    match readHex rest with
    | .error failure => .error failure
    | .ok (low, rest') =>
      if low < 0xDC00 || 0xDFFF < low then failHere .loneSurrogate rest'
      else .ok (Char.ofNat ((high - 0xD800) * 0x400 + (low - 0xDC00) + 0x10000), rest')
  | '\\' :: rest => failAtNext .unexpectedEndOfHexEscape rest
  | rest => failAtNext .unexpectedEndOfHexEscape rest

/-- The character of an escape of one letter. -/
def simpleEscape? : Char → Option Char
  | '"' => some '"'
  | '\\' => some '\\'
  | '/' => some '/'
  | 'b' => some '\x08'
  | 'f' => some '\x0c'
  | 'n' => some '\n'
  | 'r' => some '\r'
  | 't' => some '\t'
  | _ => none

/-- Reads an escape after its backslash. -/
def readEscape : List Char → Except Failure (Char × List Char)
  | [] => failHere .eofInString []
  | 'u' :: rest =>
    match readHex rest with
    | .error failure => .error failure
    | .ok (n, rest') =>
      if 0xDC00 ≤ n && n ≤ 0xDFFF then failHere .loneSurrogate rest'
      else if 0xD800 ≤ n && n ≤ 0xDBFF then readLowSurrogate n rest'
      else .ok (Char.ofNat n, rest')
  | c :: rest =>
    match simpleEscape? c with
    | some e => .ok (e, rest)
    | none => failAtNext .invalidEscape (c :: rest)

/-- Passes over an escape after its backslash. -/
def skipEscape : List Char → Except Failure (List Char)
  | [] => failHere .eofInString []
  | 'u' :: rest =>
    match readHex rest with
    | .error failure => .error failure
    | .ok (_, rest') => .ok rest'
  | c :: rest =>
    match simpleEscape? c with
    | some _ => .ok rest
    | none => failAtNext .invalidEscape (c :: rest)

theorem readHex_shorter {rest rest' : List Char} {n : Nat} (h : readHex rest = .ok (n, rest')) :
    rest'.length < rest.length := by
  unfold readHex at h
  split at h
  · simp at h
  · split at h
    · split at h
      · simp only [Except.ok.injEq, Prod.mk.injEq] at h
        simp [← h.2]
        omega
      · simp at h
    · simp at h

theorem readLowSurrogate_shorter {high : Nat} {rest rest' : List Char} {c : Char}
    (h : readLowSurrogate high rest = .ok (c, rest')) : rest'.length < rest.length := by
  unfold readLowSurrogate at h
  split at h
  · simp [failHere] at h
  · simp [failHere] at h
  · split at h
    · simp at h
    next heq =>
      split at h
      · simp [failHere] at h
      · simp only [Except.ok.injEq, Prod.mk.injEq] at h
        have := readHex_shorter heq
        simp [← h.2]
        omega
  · simp [failAtNext] at h
  · simp [failAtNext] at h

theorem readEscape_shorter {rest rest' : List Char} {c : Char}
    (h : readEscape rest = .ok (c, rest')) : rest'.length < rest.length := by
  unfold readEscape at h
  split at h
  · simp [failHere] at h
  · split at h
    · simp at h
    next heq =>
      have := readHex_shorter heq
      split at h
      · simp [failHere] at h
      · split at h
        · have := readLowSurrogate_shorter h
          simp only [List.length_cons]
          omega
        · simp only [Except.ok.injEq, Prod.mk.injEq] at h
          simp [← h.2]
          omega
  · split at h
    · simp only [Except.ok.injEq, Prod.mk.injEq] at h
      simp [← h.2]
    · simp [failAtNext] at h

theorem skipEscape_shorter {rest rest' : List Char} (h : skipEscape rest = .ok rest') :
    rest'.length < rest.length := by
  unfold skipEscape at h
  split at h
  · simp [failHere] at h
  · split at h
    · simp at h
    next heq =>
      have := readHex_shorter heq
      simp only [Except.ok.injEq] at h
      simp [← h]
      omega
  · split at h
    · simp only [Except.ok.injEq] at h
      simp [← h]
    · simp [failAtNext] at h

/-- Reads a string up to its closing quote; `acc` holds the characters so far, last first. -/
def readString (acc : List Char) (cs : List Char) : Except Failure (List Char × List Char) :=
  match cs with
  | [] => failHere .eofInString []
  | '"' :: rest => .ok (acc.reverse, rest)
  | '\\' :: rest =>
    match _h : readEscape rest with
    | .error failure => .error failure
    | .ok (c, rest') => readString (c :: acc) rest'
  | c :: rest =>
    if c < ' ' then failAtNext .controlCharacter (c :: rest)
    else readString (c :: acc) rest
termination_by cs.length
decreasing_by
  · have := readEscape_shorter _h
    simp only [List.length_cons]
    omega
  · simp

/-- Passes over a string up to its closing quote. -/
def skipString (cs : List Char) : Except Failure (List Char) :=
  match cs with
  | [] => failHere .eofInString []
  | '"' :: rest => .ok rest
  | '\\' :: rest =>
    match _h : skipEscape rest with
    | .error failure => .error failure
    | .ok rest' => skipString rest'
  | c :: rest =>
    if c < ' ' then failHere .controlCharacter (c :: rest)
    else skipString rest
termination_by cs.length
decreasing_by
  · have := skipEscape_shorter _h
    simp only [List.length_cons]
    omega
  · simp

theorem readString_shorter {acc cs text rest : List Char}
    (h : readString acc cs = .ok (text, rest)) : rest.length < cs.length := by
  fun_induction readString acc cs with
  | case1 => simp [failHere] at h
  | case2 =>
    simp only [Except.ok.injEq, Prod.mk.injEq] at h
    simp [← h.2]
  | case3 => simp at h
  | case4 acc rest₀ c rest' hc ih =>
    have := ih h
    have := readEscape_shorter hc
    simp only [List.length_cons]
    omega
  | case5 => simp [failAtNext] at h
  | case6 acc c rest₀ _ _ _ ih =>
    have := ih h
    simp only [List.length_cons]
    omega

theorem skipString_shorter {cs rest : List Char} (h : skipString cs = .ok rest) :
    rest.length < cs.length := by
  fun_induction skipString cs with
  | case1 => simp [failHere] at h
  | case2 =>
    simp only [Except.ok.injEq] at h
    simp [← h]
  | case3 => simp at h
  | case4 rest₀ rest' hc ih =>
    have := ih h
    have := skipEscape_shorter hc
    simp only [List.length_cons]
    omega
  | case5 => simp [failHere] at h
  | case6 c rest₀ _ _ _ ih =>
    have := ih h
    simp only [List.length_cons]
    omega

end Json
end HookPool
