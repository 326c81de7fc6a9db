/-
# Arguments that are numbers

An argument of a hook is an integer exactly if it is a signed numeral, of any length, whose number
fits 64 bits; every other text is passed on as it stands.  The two ends of the range differ by one,
and each is reached:

| text | argument |
|---|---|
| `-9223372036854775808` | an integer, the least one |
| `-9223372036854775809` | a text |
| `9223372036854775807` | an integer, the greatest one |
| `9223372036854775808` | a text |

Main statement: `parseArgument_classified`.
-/
import Mathlib.Algebra.Group.Int.Defs
import HookPool.CommandLine.Stress
import HookPool.Proofs.Text.Numeral

namespace HookPool
namespace CommandLine

/-- The text is a signed numeral of a number of 64 bits. -/
def Denotes (raw : String) (k : Int) : Prop :=
  Text.SignedNumeral raw.toList k ∧ -2 ^ 63 ≤ k ∧ k ≤ 2 ^ 63 - 1

variable {raw : String} {k : Int}

theorem readSigned_eq_ok_iff_denotes :
    Text.readSigned (Nat.pow 2 63) (Nat.pow 2 63 - 1) raw.toList = .ok k ↔ Denotes raw k :=
  Text.readSigned_eq_ok_iff

/-- A number of 64 bits stays what it is. -/
theorem Denotes.toInt_ofInt (h : Denotes raw k) : (Int64.ofInt k).toInt = k :=
  Int64.toInt_ofInt_of_le h.2.1 (by have := h.2.2; omega)

theorem Denotes.parseArgument_eq (h : Denotes raw k) :
    parseArgument raw = .integer (Int64.ofInt k) := by
  unfold parseArgument
  rw [readSigned_eq_ok_iff_denotes.2 h]

/-- Either the text denotes a number, or it is passed on. -/
theorem denotes_or_text (raw : String) :
    (∃ k, Denotes raw k) ∨ parseArgument raw = .text raw ∧ ∀ k, ¬Denotes raw k := by
  cases hread : Text.readSigned (Nat.pow 2 63) (Nat.pow 2 63 - 1) raw.toList with
  | ok k => exact .inl ⟨k, readSigned_eq_ok_iff_denotes.1 hread⟩
  | error fault =>
    refine .inr ⟨by simp [parseArgument, hread], fun k h => ?_⟩
    rw [readSigned_eq_ok_iff_denotes.2 h] at hread
    cases hread

/-- What an argument is made of a text. -/
structure Classified (raw : String) (argument : HookArg) : Prop where
  /-- It is an integer exactly if the text denotes that integer. -/
  integer : ∀ k : Int, (∃ n : Int64, argument = .integer n ∧ n.toInt = k) ↔ Denotes raw k
  /-- In every other case, and in no other, it is the text as it stands. -/
  text : argument = .text raw ↔ ¬∃ k, Denotes raw k

/-- **An argument is an integer exactly if it is a numeral of 64 bits**, and else the text as it
stands; so the decimal text of an integer of 64 bits is that integer. -/
theorem parseArgument_classified :
    (∀ raw, Classified raw (parseArgument raw)) ∧
      ∀ n : Int64, parseArgument (toString n) = .integer n := by
  refine ⟨fun raw => ?_, fun n => ?_⟩
  · rcases denotes_or_text raw with ⟨k, hk⟩ | ⟨htext, hnone⟩
    · rw [hk.parseArgument_eq]
      refine ⟨fun k' => ⟨?_, fun h => ?_⟩, nofun, fun hnone => absurd ⟨k, hk⟩ hnone⟩
      · rintro ⟨n, hn, rfl⟩
        obtain rfl := HookArg.integer.inj hn
        rw [hk.toInt_ofInt]
        exact hk
      · exact ⟨_, hk.parseArgument_eq.symm.trans h.parseArgument_eq, h.toInt_ofInt⟩
    · rw [htext]
      refine ⟨fun k => ⟨?_, fun h => absurd h (hnone k)⟩, fun _ => fun ⟨k, h⟩ => hnone k h,
        fun _ => rfl⟩
      rintro ⟨n, hn, -⟩
      cases hn
  · have hdenotes : Denotes (toString n) n.toInt :=
      ⟨Text.signedNumeral_toString n.toInt, n.le_toInt, Int.le_sub_one_of_lt n.toInt_lt⟩
    rw [hdenotes.parseArgument_eq, Int64.ofInt_toInt]

/-- A sign alone is a text, and the least number can be written with zeros before it. -/
example : parseArgument "-" = .text "-" ∧
    parseArgument "-009223372036854775808" = .integer Int64.minValue ∧
      parseArgument "9223372036854775808" = .text "9223372036854775808" := by
  decide

end CommandLine
end HookPool
