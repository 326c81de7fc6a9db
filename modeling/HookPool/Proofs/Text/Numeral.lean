/-
# What the readers of numerals accept

The grammar of numerals, told without a reader, and the readers against it.

| numeral | form | number |
|---|---|---|
| `UnsignedNumeral` | one or more ASCII digits, a plus sign before them or none | that of the digits |
| `SignedNumeral` | the same, or a minus sign and one or more ASCII digits | its negative after a minus sign |

Zeros may lead, and a numeral may have any length: only the number counts against a bound.  The
readers stop at the first digit that takes the number out of range, which makes no difference to
what they accept (`readUnsigned_eq_ok_iff`, `readSigned_eq_ok_iff`).
-/
import Mathlib.Algebra.Group.Nat.Defs
import HookPool.Proofs.Results
import HookPool.Text.Blank
import HookPool.Text.Numeral

namespace HookPool
namespace Text

/-- One or more ASCII digits. -/
structure IsDigits (cs : List Char) : Prop where
  ne_nil : cs ≠ []
  isDigit : ∀ c ∈ cs, c.isDigit = true

/-- An unsigned numeral and its number. -/
inductive UnsignedNumeral : List Char → Nat → Prop where
  | plain {ds : List Char} (h : IsDigits ds) : UnsignedNumeral ds (Nat.ofDigitChars 10 ds 0)
  | plus {ds : List Char} (h : IsDigits ds) : UnsignedNumeral ('+' :: ds) (Nat.ofDigitChars 10 ds 0)

/-- A signed numeral and its number. -/
inductive SignedNumeral : List Char → Int → Prop where
  | unsigned {cs : List Char} {n : Nat} (h : UnsignedNumeral cs n) : SignedNumeral cs n
  | minus {ds : List Char} (h : IsDigits ds) :
    SignedNumeral ('-' :: ds) (-(Nat.ofDigitChars 10 ds 0 : Nat))

variable {bound lower upper n : Nat} {cs ds : List Char} {c : Char} {k : Int}
  {overflow : NumeralFault}

theorem le_maxWord_iff : n ≤ maxWord ↔ n < 2 ^ 64 := by
  rw [show maxWord = 2 ^ 64 - 1 from rfl]
  omega

/-! ## Rows of digits -/

theorem digitsValue_eq_ofDigitChars (acc : Nat) (cs : List Char) :
    digitsValue acc cs = Nat.ofDigitChars 10 cs acc := by
  induction cs generalizing acc with
  | nil => rfl
  | cons c cs ih =>
    rw [Nat.ofDigitChars_cons, Nat.mul_comm, ← ih]
    rfl

/-- What a number denotes in decimal is the number. -/
theorem isDigits_toDigits (n : Nat) : IsDigits (Nat.toDigits 10 n) :=
  ⟨Nat.toDigits_ne_nil, fun _ hc => Nat.isDigit_of_mem_toDigits (by decide) (by decide) hc⟩

/-- **Digits are read exactly if there are any and their number keeps to the bound.** -/
theorem readDigits_eq_ok (hne : cs ≠ []) :
    readDigits bound overflow 0 cs = .ok n ↔
      IsDigits cs ∧ n = Nat.ofDigitChars 10 cs 0 ∧ n ≤ bound := by
  rw [readDigits_eq_ok_iff (Nat.zero_le bound), digitsValue_eq_ofDigitChars]
  constructor
  · rintro ⟨hdigits, hle, rfl⟩
    exact ⟨⟨hne, hdigits⟩, rfl, hle⟩
  · rintro ⟨hdigits, rfl, hle⟩
    exact ⟨hdigits.isDigit, hle, rfl⟩

theorem IsDigits.readDigits_eq (h : IsDigits ds) (overflow : NumeralFault)
    (hle : Nat.ofDigitChars 10 ds 0 ≤ bound) :
    readDigits bound overflow 0 ds = .ok (Nat.ofDigitChars 10 ds 0) :=
  (readDigits_eq_ok h.ne_nil).2 ⟨h, rfl, hle⟩

/-- Digits begin with a digit, which is no sign. -/
theorem IsDigits.exists_cons (h : IsDigits cs) :
    ∃ d ds, cs = d :: ds ∧ d ≠ '+' ∧ d ≠ '-' := by
  obtain ⟨hne, hdigits⟩ := h
  cases cs with
  | nil => exact absurd rfl hne
  | cons d ds =>
    have hd : d.isDigit = true := hdigits d (by simp)
    refine ⟨d, ds, rfl, ?_, ?_⟩
    · rintro rfl
      exact absurd hd (by decide)
    · rintro rfl
      exact absurd hd (by decide)

/-! ## Numerals -/

/-- **An unsigned numeral is read exactly if its number keeps to the bound.** -/
theorem readUnsigned_eq_ok_iff :
    readUnsigned bound cs = .ok n ↔ UnsignedNumeral cs n ∧ n ≤ bound := by
  constructor
  · intro h
    unfold readUnsigned at h
    split at h
    · cases h
    · cases h
    next ds hds =>
      obtain ⟨hdigits, rfl, hle⟩ := (readDigits_eq_ok (by simpa using hds)).1 h
      exact ⟨.plus hdigits, hle⟩
    next hne _ _ =>
      obtain ⟨hdigits, rfl, hle⟩ := (readDigits_eq_ok hne).1 h
      exact ⟨.plain hdigits, hle⟩
  · rintro ⟨h, hle⟩
    cases h with
    | plain h =>
      have hread := h.readDigits_eq .tooLarge hle
      obtain ⟨d, ds, rfl, hplus, -⟩ := h.exists_cons
      simpa [readUnsigned, hplus] using hread
    | plus h =>
      have hread := h.readDigits_eq .tooLarge hle
      obtain ⟨d, ds, rfl, -, -⟩ := h.exists_cons
      exact hread

/-- **A signed numeral is read exactly if its number keeps to both bounds.** -/
theorem readSigned_eq_ok_iff :
    readSigned lower upper cs = .ok k ↔ SignedNumeral cs k ∧ -lower ≤ k ∧ k ≤ upper := by
  constructor
  · intro h
    unfold readSigned at h
    split at h
    · cases h
    · cases h
    · cases h
    next ds _ hds =>
      obtain ⟨n, hread, rfl⟩ := map_eq_ok_iff.1 h
      obtain ⟨hdigits, rfl, hle⟩ := (readDigits_eq_ok (by simpa using hds)).1 hread
      refine ⟨.unsigned (.plus hdigits), ?_, Int.ofNat_le.2 hle⟩
      exact Int.le_trans (by omega) (Int.natCast_nonneg _)
    next ds _ hds =>
      obtain ⟨n, hread, rfl⟩ := map_eq_ok_iff.1 h
      obtain ⟨hdigits, rfl, hle⟩ := (readDigits_eq_ok (by simpa using hds)).1 hread
      refine ⟨.minus hdigits, Int.neg_le_neg (Int.ofNat_le.2 hle), ?_⟩
      exact Int.le_trans (Int.neg_nonpos_of_nonneg (Int.natCast_nonneg _)) (by omega)
    next hne _ _ _ _ =>
      obtain ⟨n, hread, rfl⟩ := map_eq_ok_iff.1 h
      obtain ⟨hdigits, rfl, hle⟩ := (readDigits_eq_ok hne).1 hread
      refine ⟨.unsigned (.plain hdigits), ?_, Int.ofNat_le.2 hle⟩
      exact Int.le_trans (by omega) (Int.natCast_nonneg _)
  · rintro ⟨h, hlower, hupper⟩
    cases h with
    | unsigned h =>
      have hle := Int.ofNat_le.1 hupper
      cases h with
      | plain h =>
        have hread := h.readDigits_eq .tooLarge hle
        obtain ⟨d, ds, rfl, hplus, hminus⟩ := h.exists_cons
        simp [readSigned, hplus, hminus, hread, Except.map]
      | plus h =>
        have hread := h.readDigits_eq .tooLarge hle
        obtain ⟨d, ds, rfl, -, -⟩ := h.exists_cons
        exact map_eq_ok_iff.2 ⟨_, hread, rfl⟩
    | @minus ds h =>
      have hle : Nat.ofDigitChars 10 ds 0 ≤ lower := by omega
      have hread := h.readDigits_eq .tooSmall hle
      obtain ⟨d, ds, rfl, -, -⟩ := h.exists_cons
      exact map_eq_ok_iff.2 ⟨_, hread, rfl⟩

/-! ## The numeral of a number -/

theorem toList_toString (n : Nat) : (toString n).toList = Nat.toDigits 10 n := by
  rw [Nat.toString_eq_ofList_toDigits, String.toList_ofList]

theorem unsignedNumeral_toString (n : Nat) : UnsignedNumeral (toString n).toList n := by
  have h := UnsignedNumeral.plain (isDigits_toDigits n)
  rwa [Nat.ofDigitChars_ten_toDigits, ← toList_toString] at h

theorem signedNumeral_toString (k : Int) : SignedNumeral (toString k).toList k := by
  cases k with
  | ofNat n => exact .unsigned (unsignedNumeral_toString n)
  | negSucc n =>
    have h := SignedNumeral.minus (isDigits_toDigits (n + 1))
    rw [Nat.ofDigitChars_ten_toDigits, ← toList_toString] at h
    have hlist : (toString (Int.negSucc n)).toList = '-' :: (toString (n + 1)).toList := by
      change ("-" ++ Nat.repr (n + 1)).toList = _
      simp
    rw [hlist]
    exact h

/-! ## White space around a numeral -/

/-- A digit is not white space. -/
theorem isBlank_of_isDigit (h : c.isDigit = true) : isBlank c = false := by
  have hc : 48 ≤ c.toNat ∧ c.toNat ≤ 57 := by
    simpa [Char.isDigit, UInt32.le_iff_toNat_le] using h
  simp only [isBlank, Bool.or_eq_false_iff, Bool.and_eq_false_iff, decide_eq_false_iff_not,
    beq_eq_false_iff_ne]
  omega

/-- No numeral has white space in it. -/
theorem UnsignedNumeral.isBlank_eq_false (h : UnsignedNumeral cs n) :
    ∀ c ∈ cs, isBlank c = false := by
  have hdigits {ds : List Char} (h : IsDigits ds) : ∀ c ∈ ds, isBlank c = false :=
    fun c hc => isBlank_of_isDigit (h.isDigit c hc)
  cases h with
  | plain h => exact hdigits h
  | plus h =>
    intro c hc
    rcases List.mem_cons.1 hc with rfl | hc
    · decide
    · exact hdigits h c hc

theorem dropWhile_isBlank (h : ∀ c ∈ cs, isBlank c = false) : cs.dropWhile isBlank = cs := by
  cases cs with
  | nil => rfl
  | cons c cs => simp [h c]

/-- **Trimming takes away the white space at both ends**, and leaves what has none in it. -/
theorem trimChars_append {before inside after : List Char}
    (hbefore : ∀ c ∈ before, isBlank c = true) (hinside : ∀ c ∈ inside, isBlank c = false)
    (hafter : ∀ c ∈ after, isBlank c = true) :
    trimChars (before ++ inside ++ after) = inside := by
  have hend : ((inside ++ after).dropWhile isBlank).reverse.dropWhile isBlank = inside.reverse := by
    cases inside with
    | nil =>
      have hnone : (after ++ []).dropWhile isBlank = [] := List.dropWhile_append_of_pos hafter
      rw [List.append_nil] at hnone
      simp [hnone]
    | cons c cs =>
      have hc : ¬isBlank c = true := by simp [hinside c]
      rw [List.cons_append, List.dropWhile_cons_of_neg hc, ← List.cons_append,
        List.reverse_append, List.dropWhile_append_of_pos (by simpa using hafter)]
      exact dropWhile_isBlank fun c hc => hinside c (List.mem_reverse.1 hc)
  rw [trimChars, List.append_assoc, List.dropWhile_append_of_pos hbefore, hend,
    List.reverse_reverse]

theorem trimChars_eq_self (h : ∀ c ∈ cs, isBlank c = false) : trimChars cs = cs := by
  have hnone : ∀ c ∈ [], isBlank c = true := nofun
  simpa using trimChars_append hnone h hnone

/-- Only white space is taken away. -/
theorem eq_append_trimChars (cs : List Char) :
    ∃ before after, (∀ c ∈ before, isBlank c = true) ∧ (∀ c ∈ after, isBlank c = true) ∧
      cs = before ++ trimChars cs ++ after := by
  have hblank (ds : List Char) : ∀ c ∈ ds.takeWhile isBlank, isBlank c = true :=
    List.all_eq_true.1 List.all_takeWhile
  refine ⟨cs.takeWhile isBlank, ((cs.dropWhile isBlank).reverse.takeWhile isBlank).reverse,
    hblank cs, fun c hc => hblank _ c (List.mem_reverse.1 hc), ?_⟩
  rw [List.append_assoc, trimChars, ← List.reverse_append, List.takeWhile_append_dropWhile,
    List.reverse_reverse, List.takeWhile_append_dropWhile]

end Text
end HookPool
