/-
# Numbers against the grammar

`skipNumber` passes over every number of the grammar as a whole, provided that what follows does not
go on with it (`Ends`).  `readNumber` gives a whole number exactly for digits whose number is below
`2 ^ 64` (`readNumber_eq_whole_iff`); whatever has a fraction, an exponent or a larger number
becomes a floating-point number or fails, as does zero after a minus sign, and whatever else has a
minus sign is negative.

Main statement: `readSize_eq_ok_iff`, what is read as a size.
-/
import HookPool.Json.Value
import HookPool.Proofs.Json.Grammar

namespace HookPool
namespace Json

variable {cs ds space rest whole fraction exponent : List Char} {c : Char} {n m k : Nat}
  {positive : Bool}

/-! ## White space -/

theorem isBlank_iff : isBlank c = true ↔ c ∈ [' ', '\t', '\n', '\r'] := by
  simp [isBlank]
  grind

theorem skipBlank_append (h : IsSpace space) (hc : isBlank c = false) (cs : List Char) :
    skipBlank (space ++ c :: cs) = c :: cs := by
  have hspace : ∀ d ∈ space, isBlank d = true := fun d hd => isBlank_iff.2 (h d hd)
  rw [skipBlank, List.dropWhile_append_of_pos hspace, List.dropWhile_cons_of_neg (by simp [hc])]

theorem exists_space (cs : List Char) : ∃ space, IsSpace space ∧ cs = space ++ skipBlank cs := by
  have hspace : IsSpace (cs.takeWhile isBlank) := fun c hc =>
    isBlank_iff.1 (List.all_eq_true.1 List.all_takeWhile c hc)
  exact ⟨_, hspace, List.takeWhile_append_dropWhile.symm⟩

theorem isBlank_of_isDigit (h : c.isDigit = true) : isBlank c = false := by
  rw [Bool.eq_false_iff]
  intro hblank
  simp only [isBlank_iff, List.mem_cons, List.not_mem_nil, or_false] at hblank
  rcases hblank with rfl | rfl | rfl | rfl <;> exact absurd h (by decide)

/-! ## Where digits end -/

/-- No digit comes next. -/
def NoDigit (cs : List Char) : Prop := ∀ c rest, cs = c :: rest → c.isDigit = false

/-- No fraction and no exponent comes next. -/
def NoMark (cs : List Char) : Prop := ∀ c rest, cs = c :: rest → c ∉ ['.', 'e', 'E']

/-- Nothing comes next that would go on with a number. -/
structure Ends (cs : List Char) : Prop where
  noDigit : NoDigit cs
  noMark : NoMark cs

theorem IsExponent.noDigit (h : IsExponent exponent) (hrest : Ends rest) :
    NoDigit (exponent ++ rest) := by
  cases h with
  | none => exact hrest.noDigit
  | power hletter hsign h =>
    rintro c _ ⟨⟩
    revert hletter
    simp only [List.mem_cons, List.not_mem_nil, or_false]
    rintro (rfl | rfl) <;> rfl

theorem IsFraction.noDigit (h : IsFraction fraction) (hexponent : IsExponent exponent)
    (hrest : Ends rest) : NoDigit (fraction ++ (exponent ++ rest)) := by
  cases h with
  | none => exact hexponent.noDigit hrest
  | point h =>
    rintro c _ ⟨⟩
    rfl

/-- A run of digits is taken as a whole. -/
theorem dropWhile_isDigit (h : ∀ c ∈ ds, c.isDigit = true) (hrest : NoDigit rest) :
    (ds ++ rest).dropWhile Char.isDigit = rest := by
  rw [List.dropWhile_append_of_pos h]
  cases rest with
  | nil => rfl
  | cons c rest => simp [hrest c rest rfl]

/-- Digits are a digit, and digits or nothing. -/
theorem exists_digit (h : Text.IsDigits ds) :
    ∃ d ds', ds = d :: ds' ∧ d.isDigit = true ∧ ∀ c ∈ ds', c.isDigit = true := by
  obtain ⟨d, ds', rfl, -, -⟩ := h.exists_cons
  exact ⟨d, ds', rfl, h.isDigit d (by simp), fun c hc => h.isDigit c (by simp [hc])⟩

/-- Where two runs of digits begin and end at the same places, they are the same. -/
theorem digits_unique {ds' rest' : List Char} (h : ∀ c ∈ ds, c.isDigit = true)
    (h' : ∀ c ∈ ds', c.isDigit = true) (hrest : NoDigit rest) (hrest' : NoDigit rest')
    (heq : ds ++ rest = ds' ++ rest') : ds = ds' ∧ rest = rest' := by
  have hrests : rest = rest' := by
    rw [← dropWhile_isDigit h hrest, heq, dropWhile_isDigit h' hrest']
  subst hrests
  exact ⟨List.append_cancel_right heq, rfl⟩

/-! ## Passing over a number -/

theorem exponentSign_digits (h : Text.IsDigits ds) (rest : List Char) :
    (exponentSign (ds ++ rest)).2 = ds ++ rest := by
  obtain ⟨d, ds, rfl, hplus, hminus⟩ := h.exists_cons
  simp [exponentSign, hplus, hminus]

theorem exponentSign_append {sign : List Char} (hsign : sign ∈ [[], ['+'], ['-']])
    (h : Text.IsDigits ds) (rest : List Char) :
    (exponentSign (sign ++ (ds ++ rest))).2 = ds ++ rest := by
  simp only [List.mem_cons, List.not_mem_nil, or_false] at hsign
  rcases hsign with rfl | rfl | rfl
  · exact exponentSign_digits h rest
  · rfl
  · rfl

theorem skipTail_of_noMark (h : NoMark rest) : skipTail rest = .ok rest := by
  cases rest with
  | nil => rfl
  | cons c rest =>
    have hc := h c rest rfl
    simp only [List.mem_cons, List.not_mem_nil, or_false, not_or] at hc
    simp [skipTail, hc.2.1, hc.2.2]

theorem skipTail_append (h : IsExponent exponent) (hrest : Ends rest) :
    skipTail (exponent ++ rest) = .ok rest := by
  cases h with
  | none => exact skipTail_of_noMark hrest.noMark
  | @power letter sign ds hletter hsign h =>
    have hskip : skipExponent (sign ++ (ds ++ rest)) = .ok rest := by
      rw [skipExponent, exponentSign_append hsign h]
      obtain ⟨d, ds, rfl, hd, hds⟩ := exists_digit h
      simp [hd, dropWhile_isDigit hds hrest.noDigit]
    simp only [List.mem_cons, List.not_mem_nil, or_false] at hletter
    rcases hletter with rfl | rfl <;> simpa [skipTail] using hskip

/-- Without a point there is no fraction. -/
theorem skipAfterWhole_eq_skipTail (h : cs.head? ≠ some '.') : skipAfterWhole cs = skipTail cs := by
  unfold skipAfterWhole
  split
  · exact absurd rfl h
  · rfl

theorem IsExponent.head?_ne_point (h : IsExponent exponent) (hrest : Ends rest) :
    (exponent ++ rest).head? ≠ some '.' := by
  cases h with
  | none =>
    cases rest with
    | nil => simp
    | cons c rest =>
      have hc := hrest.noMark c rest rfl
      simp only [List.mem_cons, List.not_mem_nil, or_false, not_or] at hc
      simpa using hc.1
  | power hletter hsign h =>
    simp only [List.mem_cons, List.not_mem_nil, or_false] at hletter
    rcases hletter with rfl | rfl <;> simp

theorem skipAfterWhole_append (hfraction : IsFraction fraction) (hexponent : IsExponent exponent)
    (hrest : Ends rest) : skipAfterWhole (fraction ++ (exponent ++ rest)) = .ok rest := by
  have htail := skipTail_append hexponent hrest
  cases hfraction with
  | none =>
    rw [List.nil_append, skipAfterWhole_eq_skipTail (hexponent.head?_ne_point hrest), htail]
  | @point ds h =>
    obtain ⟨d, ds, rfl, hd, hds⟩ := exists_digit h
    simp [skipAfterWhole, skipFraction, hd, dropWhile_isDigit hds (hexponent.noDigit hrest), htail]

/-- **A number is passed over as a whole.** -/
theorem skipNumber_append (h : IsUnsigned cs) (hrest : Ends rest) :
    skipNumber (cs ++ rest) = .ok rest := by
  obtain ⟨⟨hdigits, hzero⟩, hfraction, hexponent⟩ := h
  rename_i whole fraction exponent
  have hskip := skipAfterWhole_append hfraction hexponent hrest
  have hnoDigit := hfraction.noDigit hexponent hrest
  obtain ⟨d, ds, rfl, hd, hds⟩ := exists_digit hdigits
  simp only [List.append_assoc, List.cons_append]
  by_cases hd0 : d = '0'
  · obtain rfl : ds = [] := by simpa [hd0] using hzero
    subst hd0
    rw [List.nil_append]
    generalize htail : fraction ++ (exponent ++ rest) = tail at hskip hnoDigit
    cases tail with
    | nil => simpa [skipNumber, skipAfterWhole, skipTail] using hskip
    | cons c tail => simpa [skipNumber, hnoDigit c tail rfl] using hskip
  · unfold skipNumber
    split
    next heq => cases heq
    next heq => exact absurd (List.cons.inj heq).1 hd0
    next heq =>
      obtain ⟨rfl, rfl⟩ := List.cons.inj heq
      rw [if_pos hd, dropWhile_isDigit hds hnoDigit, hskip]

/-! ## Reading a whole number -/

/-- What is read, if anything is, is no whole number. -/
def NeverWhole (result : Except Failure (Number × List Char)) : Prop :=
  ∀ value rest, result ≠ .ok (.whole value, rest)

theorem neverWhole_floatingNumber (significand : Nat) (exponent : Int) (cs : List Char) :
    NeverWhole (floatingNumber positive significand exponent cs) := by
  intro value rest h
  unfold floatingNumber at h
  split at h <;> cases h

theorem neverWhole_readExponent (significand : Nat) (start : Int) (cs : List Char) :
    NeverWhole (readExponent positive significand start cs) := by
  intro value rest h
  unfold readExponent at h
  simp only at h
  split at h
  · cases h
  · split at h
    · cases h
    · split at h
      · exact neverWhole_floatingNumber _ _ _ value rest h
      · split at h <;> cases h

theorem neverWhole_readTail (significand : Nat) (exponent : Int) (cs : List Char) :
    NeverWhole (readTail positive significand exponent cs) := by
  unfold readTail
  split
  · exact neverWhole_readExponent _ _ _
  · exact neverWhole_readExponent _ _ _
  · exact neverWhole_floatingNumber _ _ _

theorem neverWhole_readFraction (significand : Nat) (start : Int) (cs : List Char) :
    NeverWhole (readFraction positive significand start cs) := by
  intro value rest h
  unfold readFraction at h
  simp only at h
  split at h
  · split at h
    · exact neverWhole_readTail _ _ _ value rest h
    · split at h
      · cases h
      · exact neverWhole_readTail _ _ _ value rest h
  · split at h
    · cases h
    · exact neverWhole_readTail _ _ _ value rest h

/-- A whole number comes of digits that all fit, with nothing after them that goes on. -/
theorem afterWhole_eq_whole_iff {value : Int} {dropped : Nat} :
    afterWhole positive n dropped cs = .ok (.whole value, rest) ↔
      dropped = 0 ∧ NoMark cs ∧ wholeNumber positive n = .whole value ∧ rest = cs := by
  unfold afterWhole
  split
  next tail =>
    exact iff_of_false (neverWhole_readFraction _ _ _ _ _) fun h => h.2.1 _ _ rfl (by simp)
  next tail =>
    exact iff_of_false (neverWhole_readExponent _ _ _ _ _) fun h => h.2.1 _ _ rfl (by simp)
  next tail =>
    exact iff_of_false (neverWhole_readExponent _ _ _ _ _) fun h => h.2.1 _ _ rfl (by simp)
  next hpoint hlower hupper =>
    have hends : NoMark cs := by
      rintro c tail rfl hc
      simp only [List.mem_cons, List.not_mem_nil, or_false] at hc
      rcases hc with rfl | rfl | rfl
      · exact hpoint tail rfl
      · exact hlower tail rfl
      · exact hupper tail rfl
    split
    next hdropped => simp [hdropped, hends, eq_comm]
    next hdropped =>
      exact iff_of_false (neverWhole_floatingNumber _ _ _ _ _) fun h => hdropped h.1

theorem wholeDigits_append (h : ∀ c ∈ ds, c.isDigit = true) (hrest : NoDigit rest)
    (hle : Text.digitsValue n ds ≤ Text.maxWord) :
    wholeDigits n (ds ++ rest) = (Text.digitsValue n ds, 0, rest) := by
  induction ds generalizing n with
  | nil =>
    cases rest with
    | nil => rfl
    | cons c rest => simp [wholeDigits, hrest c rest rfl, Text.digitsValue]
  | cons d ds ih =>
    have hd : d.isDigit = true := h d (by simp)
    have hfits : ¬Text.maxWord < n * 10 + Text.digitValue d := by
      have := Text.le_digitsValue (n * 10 + Text.digitValue d) ds
      exact Nat.not_lt.2 (Nat.le_trans this hle)
    rw [List.cons_append, wholeDigits, if_pos hd, if_neg hfits]
    exact ih (fun c hc => h c (by simp [hc])) hle

theorem noDigit_dropWhile (cs : List Char) : NoDigit (cs.dropWhile Char.isDigit) := by
  intro c rest heq
  have hhead := List.head?_dropWhile_not Char.isDigit cs
  rw [heq] at hhead
  simpa using hhead

theorem noDigit_wholeDigits (n : Nat) (cs : List Char) : NoDigit (wholeDigits n cs).2.2 := by
  fun_induction wholeDigits n cs with
  | case1 =>
    rintro _ _ ⟨⟩
  | case2 => exact noDigit_dropWhile _
  | case3 n c tail _ _ ih => exact ih
  | case4 n c tail hc =>
    rintro _ _ ⟨⟩
    simpa using hc

/-- If no digit is dropped, all of them have been taken. -/
theorem exists_of_wholeDigits (hn : n ≤ Text.maxWord) (h : (wholeDigits n cs).2.1 = 0) :
    ∃ ds, (∀ c ∈ ds, c.isDigit = true) ∧ cs = ds ++ (wholeDigits n cs).2.2 ∧
      (wholeDigits n cs).1 = Text.digitsValue n ds ∧ (wholeDigits n cs).1 ≤ Text.maxWord := by
  fun_induction wholeDigits n cs with
  | case1 n => exact ⟨[], by simp, rfl, rfl, hn⟩
  | case2 n c tail hc hbig => simp [hc] at h
  | case3 n c tail hc hfits ih =>
    obtain ⟨ds, hds, heq, hvalue, hle⟩ := ih (by omega) h
    exact ⟨c :: ds, by simpa [hc] using hds, congrArg (c :: ·) heq, hvalue, hle⟩
  | case4 n c tail hc => exact ⟨[], by simp, rfl, rfl, hn⟩

/-- A whole number below `2 ^ 64`. -/
structure IsSize (cs : List Char) (n : Nat) : Prop where
  whole : IsWhole cs
  value : n = Nat.ofDigitChars 10 cs 0
  lt : n < 2 ^ 64

theorem digitValue_le_maxWord (h : c.isDigit = true) : Text.digitValue c ≤ Text.maxWord := by
  have hc : 48 ≤ c.toNat ∧ c.toNat ≤ 57 := by
    simpa [Char.isDigit, UInt32.le_iff_toNat_le] using h
  rw [Text.le_maxWord_iff, Text.digitValue]
  omega

theorem digitsValue_cons (c : Char) (ds : List Char) :
    Text.digitsValue (Text.digitValue c) ds = Nat.ofDigitChars 10 (c :: ds) 0 := by
  rw [← Text.digitsValue_eq_ofDigitChars]
  simp [Text.digitsValue]

theorem readNumber_of_isSize {value : Int} (h : IsSize cs n)
    (hvalue : wholeNumber positive n = .whole value) (hrest : Ends rest) :
    readNumber positive (cs ++ rest) = .ok (.whole value, rest) := by
  obtain ⟨⟨hdigits, hzero⟩, hn, hlt⟩ := h
  obtain ⟨d, ds, rfl, hd, hds⟩ := exists_digit hdigits
  have hafter : afterWhole positive n 0 rest = .ok (.whole value, rest) :=
    afterWhole_eq_whole_iff.2 ⟨rfl, hrest.noMark, hvalue, rfl⟩
  by_cases hd0 : d = '0'
  · obtain rfl : ds = [] := by simpa [hd0] using hzero
    subst hd0 hn
    cases rest with
    | nil => exact hafter
    | cons c rest =>
      rw [List.singleton_append]
      simp only [readNumber, hrest.noDigit c rest rfl, Bool.false_eq_true, if_false]
      exact hafter
  · rw [← digitsValue_cons] at hn
    subst hn
    rw [List.cons_append]
    unfold readNumber
    split
    next heq => cases heq
    next heq => exact absurd (List.cons.inj heq).1 hd0
    next heq =>
      obtain ⟨rfl, rfl⟩ := List.cons.inj heq
      rw [if_pos hd, wholeDigits_append hds hrest.noDigit (Text.le_maxWord_iff.2 hlt)]
      exact hafter

theorem isSize_of_readNumber {value : Int}
    (h : readNumber positive cs = .ok (.whole value, rest)) : ∃ whole n, IsSize whole n ∧
      cs = whole ++ rest ∧ wholeNumber positive n = .whole value ∧ Ends rest := by
  unfold readNumber at h
  split at h
  next => cases h
  next tail =>
    -- a zero in front has to be alone
    have hzero : IsSize ['0'] 0 := ⟨⟨⟨by simp, by simp⟩, fun _ => rfl⟩, rfl, by decide⟩
    have hdone (htail : NoDigit tail)
        (h : afterWhole positive 0 0 tail = .ok (.whole value, rest)) : ∃ whole n, IsSize whole n ∧
          '0' :: tail = whole ++ rest ∧ wholeNumber positive n = .whole value ∧ Ends rest := by
      obtain ⟨-, hmark, hvalue, rfl⟩ := afterWhole_eq_whole_iff.1 h
      exact ⟨['0'], 0, hzero, rfl, hvalue, htail, hmark⟩
    split at h
    next c _ =>
      split at h
      next => cases h
      next hc =>
        refine hdone ?_ h
        rintro _ _ ⟨⟩
        simpa using hc
    next => exact hdone nofun h
  next c tail hc0 =>
    split at h
    next hc =>
      obtain ⟨hnone, hmark, hvalue, rfl⟩ := afterWhole_eq_whole_iff.1 h
      obtain ⟨ds, hds, heq, hm, hle⟩ := exists_of_wholeDigits (digitValue_le_maxWord hc) hnone
      have hwhole : IsWhole (c :: ds) :=
        ⟨⟨by simp, by simpa [hc] using hds⟩, fun h0 => absurd (by simpa using h0) hc0⟩
      refine ⟨c :: ds, _, ⟨hwhole, ?_, Text.le_maxWord_iff.1 hle⟩, congrArg (c :: ·) heq, hvalue,
        noDigit_wholeDigits _ _, hmark⟩
      rw [hm, digitsValue_cons]
    next => cases h

/-- **A whole number is read exactly for digits whose number keeps to 64 bits**, if its sign lets
it be one. -/
theorem readNumber_eq_whole_iff {value : Int} :
    readNumber positive cs = .ok (.whole value, rest) ↔ ∃ whole n, IsSize whole n ∧
      cs = whole ++ rest ∧ wholeNumber positive n = .whole value ∧ Ends rest := by
  constructor
  · exact isSize_of_readNumber
  · rintro ⟨whole, n, hsize, rfl, hvalue, hrest⟩
    exact readNumber_of_isSize hsize hvalue hrest

/-- What has a minus sign is negative, if it is a whole number at all. -/
theorem neg_of_wholeNumber {value : Int} (h : wholeNumber false n = .whole value) : value < 0 := by
  unfold wholeNumber at h
  simp only [Bool.false_eq_true, if_false] at h
  split at h
  next => cases h
  next hn =>
    simp only [Bool.or_eq_true, decide_eq_true_eq, not_or] at hn
    obtain rfl := Number.whole.inj h
    omega

/-- **A size is read exactly for a whole number below `2 ^ 64`**, after white space. -/
theorem readSize_eq_ok_iff :
    readSize cs = .ok (n, rest) ↔ ∃ space whole,
      IsSpace space ∧ IsSize whole n ∧ cs = space ++ (whole ++ rest) ∧ Ends rest := by
  constructor
  · intro h
    obtain ⟨space, hspace, heq⟩ := exists_space cs
    unfold readSize at h
    split at h
    next => cases h
    next c tail hc =>
      split at h
      next hfirst =>
        split at h
        next => cases h
        next n rest hread =>
          obtain ⟨rfl, rfl⟩ := Prod.mk.inj (Except.ok.inj h)
          by_cases hminus : c = '-'
          · subst hminus
            obtain ⟨_, _, -, -, hvalue, -⟩ := readNumber_eq_whole_iff.1 hread
            exact absurd (neg_of_wholeNumber hvalue) (Int.not_lt.2 (Int.natCast_nonneg n))
          · rw [bne_iff_ne.2 hminus, if_neg (by simpa using hminus)] at hread
            obtain ⟨whole, n', hsize, hwhole, hvalue, hends⟩ := readNumber_eq_whole_iff.1 hread
            obtain rfl : n' = n := Int.ofNat.inj (Number.whole.inj hvalue)
            exact ⟨space, whole, hspace, hsize, by rw [heq, hc, hwhole], hends⟩
        next => cases h
        next => cases h
      next => exact absurd h (misfit_ne_ok _ _ _)
  · rintro ⟨space, whole, hspace, hsize, rfl, hends⟩
    have hread : readNumber true (whole ++ rest) = .ok (.whole n, rest) :=
      readNumber_eq_whole_iff.2 ⟨whole, n, hsize, rfl, rfl, hends⟩
    obtain ⟨d, ds, rfl, hd, -⟩ := exists_digit hsize.whole.digits
    have hminus : d ≠ '-' := by
      rintro rfl
      exact absurd hd (by decide)
    rw [readSize, List.cons_append, skipBlank_append hspace (isBlank_of_isDigit hd)]
    simp only [hd, Bool.or_true, if_true, beq_eq_false_iff_ne.2 hminus, Bool.false_eq_true,
      if_false, bne, Bool.not_false]
    rw [← List.cons_append, hread]

/-! ## The numeral of a number -/

/-- Only zero begins with a zero in decimal. -/
theorem head?_toDigits (n : Nat) (h : (Nat.toDigits 10 n).head? = some '0') : n = 0 := by
  induction n using Nat.strongRecOn with
  | ind n ih =>
    rcases Nat.lt_or_ge n 10 with hn | hn
    · rw [Nat.toDigits_of_lt_base hn] at h
      have hdigit : ∀ k < 10, [k.digitChar].head? = some '0' → k = 0 := by decide
      exact hdigit n hn h
    · rw [Nat.toDigits_of_base_le (by decide) hn] at h
      have hfront : (Nat.toDigits 10 (n / 10)).head? = some '0' := by
        obtain ⟨d, ds, hds⟩ := List.exists_cons_of_ne_nil
          (Nat.toDigits_ne_nil : Nat.toDigits 10 (n / 10) ≠ [])
        rw [hds] at h ⊢
        exact h
      have := ih (n / 10) (by omega) hfront
      omega

theorem isSize_toDigits (hn : n < 2 ^ 64) : IsSize (Nat.toDigits 10 n) n where
  whole := ⟨Text.isDigits_toDigits n, fun h => by rw [head?_toDigits n h]; rfl⟩
  value := Nat.ofDigitChars_ten_toDigits.symm
  lt := hn

theorem IsSize.unique (h : IsSize cs n) (h' : IsSize cs m) : n = m :=
  h.value.trans h'.value.symm

end Json
end HookPool
