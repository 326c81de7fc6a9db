/-
# Bytes read as UTF-8

Scripts, files and environment values are bytes; names and messages are text.  Two readings lead
from the first to the second: `decode?` accepts well-formed UTF-8 only, and `decodeLossy` puts one
U+FFFD in place of every maximal run of bytes that begins a character but does not finish it.

`leadingChar` is the common step: the character that the bytes begin with, or none, together with
the number of bytes that it or the ill-formed run covers, which is never zero
(`leadingChar_width_pos`).
-/

namespace HookPool
namespace Text

/-- Rows of bytes are compared byte by byte. -/
instance decEqBytes : DecidableEq ByteArray := ByteArray.decEq

/-- A byte that continues a character, `10xxxxxx`. -/
def isContinuation (b : UInt8) : Bool :=
  0x80 ≤ b && b ≤ 0xBF

/-- The number of bytes that `b` announces when it begins a character, with the range that the
second byte has to keep to, so that no overlong form, surrogate or value above U+10FFFF is read. -/
def leadShape (b : UInt8) : Option (Nat × UInt8 × UInt8) :=
  if b < 0x80 then some (1, 0, 0)
  else if b < 0xC2 then none
  else if b < 0xE0 then some (2, 0x80, 0xBF)
  else if b == 0xE0 then some (3, 0xA0, 0xBF)
  else if b == 0xED then some (3, 0x80, 0x9F)
  else if b < 0xF0 then some (3, 0x80, 0xBF)
  else if b == 0xF0 then some (4, 0x90, 0xBF)
  else if b < 0xF4 then some (4, 0x80, 0xBF)
  else if b == 0xF4 then some (4, 0x80, 0x8F)
  else none

/-- The payload bits of a continuation byte, appended to `acc`. -/
def pushBits (acc : Nat) (b : UInt8) : Nat :=
  acc * 64 + b.toNat % 64

/-- The character that the bytes `b :: rest` begin with, or none if they begin with an ill-formed
run, and how many bytes the character or the run takes. -/
def leadingChar (b : UInt8) (rest : List UInt8) : Option Char × Nat :=
  match leadShape b with
  | none => (none, 1)
  | some (1, _, _) => (some (Char.ofNat b.toNat), 1)
  | some (width, low, high) =>
    match rest with
    | [] => (none, 1)
    | second :: rest =>
      if second < low || high < second then (none, 1)
      else if width == 2 then (some (Char.ofNat (pushBits (b.toNat % 32) second)), 2)
      else match rest with
        | [] => (none, 2)
        | third :: rest =>
          if !isContinuation third then (none, 2)
          else if width == 3 then
            (some (Char.ofNat (pushBits (pushBits (b.toNat % 16) second) third)), 3)
          else match rest with
            | [] => (none, 3)
            | fourth :: _ =>
              if !isContinuation fourth then (none, 3)
              else (some (Char.ofNat
                (pushBits (pushBits (pushBits (b.toNat % 8) second) third) fourth)), 4)

theorem leadingChar_width_pos (b : UInt8) (rest : List UInt8) : 0 < (leadingChar b rest).2 := by
  unfold leadingChar
  repeat' split
  all_goals simp

/-- The text of `bytes`, with U+FFFD for each ill-formed run. -/
def decodeCharsLossy : List UInt8 → List Char
  | [] => []
  | b :: rest =>
    (leadingChar b rest).1.getD '\uFFFD' ::
      decodeCharsLossy (rest.drop ((leadingChar b rest).2 - 1))
termination_by bytes => bytes.length
decreasing_by simp only [List.length_drop, List.length_cons]; omega

/-- The text of `bytes`, with U+FFFD for each ill-formed run. -/
def decodeLossy (bytes : ByteArray) : String :=
  match String.fromUTF8? bytes with
  | some text => text
  | none => String.ofList (decodeCharsLossy bytes.toList)

/-- The text of `bytes` if they are well-formed UTF-8. -/
def decode? (bytes : ByteArray) : Option String :=
  String.fromUTF8? bytes

end Text
end HookPool
