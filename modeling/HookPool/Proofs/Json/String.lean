/-
# Strings against the grammar

`readString` reads exactly the strings that spell a text, up to the closing quote
(`readString_eq_ok_iff`), and `skipString` passes over every string of the grammar, also over one
that holds half of a pair (`skipString_append`).  So where a string ends is not a matter of what it
spells, and the body of a string can be told from what follows it (`stringBody_unique`).
-/
import HookPool.Proofs.Json.Grammar

namespace HookPool
namespace Json

variable {cs rest quad es body text acc : List Char} {a b c d : Char} {n : Nat}

/-! ## Hexadecimal digits -/

/-- The hexadecimal digits are found among the ASCII characters. -/
theorem toNat_lt_of_hexValue (h : hexValue? c = some n) : c.toNat < 128 := by
  unfold hexValue? at h
  split at h
  next hc =>
    have hc : 48 ≤ c.toNat ∧ c.toNat ≤ 57 := by
      simpa [Char.isDigit, UInt32.le_iff_toNat_le] using hc
    omega
  next =>
    split at h
    next hc =>
      have hc : c.toNat ≤ 102 := hc.2
      omega
    next =>
      split at h
      next hc =>
        have hc : c.toNat ≤ 70 := hc.2
        omega
      next => cases h

theorem hexDigit_of_ascii : ∀ k < 128, ∀ n ∈ hexValue? (Char.ofNat k),
    n < 16 ∧ (Char.ofNat k = n.digitChar ∨ Char.ofNat k = n.digitChar.toUpper) := by
  decide

theorem hexValue?_digitChar : ∀ n < 16, hexValue? n.digitChar = some n ∧
    hexValue? n.digitChar.toUpper = some n := by
  decide

theorem hexValue?_eq_some_iff : hexValue? c = some n ↔ HexDigit c n := by
  constructor
  · intro h
    have hdigit := hexDigit_of_ascii c.toNat (toNat_lt_of_hexValue h)
    rw [Char.ofNat_toNat] at hdigit
    exact hdigit n h
  · rintro ⟨hn, rfl | rfl⟩
    · exact (hexValue?_digitChar n hn).1
    · exact (hexValue?_digitChar n hn).2

theorem hexQuad?_eq_some_iff : hexQuad? a b c d = some n ↔ HexQuad [a, b, c, d] n := by
  simp only [hexQuad?, bind, Option.bind_eq_some_iff, hexValue?_eq_some_iff]
  constructor
  · rintro ⟨i, ha, j, hb, k, hc, l, hd, h⟩
    obtain rfl := Option.some.inj h
    exact .mk ha hb hc hd
  · rintro ⟨ha, hb, hc, hd⟩
    exact ⟨_, ha, _, hb, _, hc, _, hd, rfl⟩

theorem length_le_byteLength (cs : List Char) : cs.length ≤ byteLength cs := by
  have hfold (n : Nat) : n + cs.length ≤ cs.foldl (fun n c => n + c.utf8Size) n := by
    induction cs generalizing n with
    | nil => exact Nat.le_refl n
    | cons c cs ih =>
      have hc := c.utf8Size_pos
      have hrest := ih (n + c.utf8Size)
      simp only [List.length_cons, List.foldl_cons]
      omega
  simpa [byteLength] using hfold 0

theorem readHex_eq_ok_iff :
    readHex cs = .ok (n, rest) ↔ ∃ quad, HexQuad quad n ∧ cs = quad ++ rest := by
  constructor
  · intro h
    unfold readHex at h
    split at h
    · cases h
    · split at h
      next a b c d tail _ =>
        split at h
        next n' hquad =>
          obtain ⟨rfl, rfl⟩ := Prod.mk.inj (Except.ok.inj h)
          exact ⟨[a, b, c, d], hexQuad?_eq_some_iff.1 hquad, rfl⟩
        next => cases h
      next => cases h
  · rintro ⟨quad, hquad, rfl⟩
    obtain ⟨ha, hb, hc, hd⟩ := hquad
    rename_i a b c d i j k l
    have hlong : ¬byteLength (a :: b :: c :: d :: rest) < 4 := by
      have := length_le_byteLength (a :: b :: c :: d :: rest)
      simp only [List.length_cons] at this
      omega
    have hvalue := hexQuad?_eq_some_iff.2 (.mk ha hb hc hd)
    simp only [List.cons_append, List.nil_append, readHex, hlong, if_false, hvalue]

theorem HexQuad.readHex_eq (h : HexQuad quad n) (rest : List Char) :
    readHex (quad ++ rest) = .ok (n, rest) :=
  readHex_eq_ok_iff.2 ⟨quad, h, rfl⟩

/-! ## Escapes -/

theorem simpleEscape?_eq_some_iff {l : Char} :
    simpleEscape? l = some c ↔ (l, c) ∈ escapeLetters := by
  unfold simpleEscape? escapeLetters
  split <;> simp_all [eq_comm]

theorem readLowSurrogate_eq_ok_iff {high : Nat} :
    readLowSurrogate high cs = .ok (c, rest) ↔ ∃ quad low, HexQuad quad low ∧
      (0xDC00 ≤ low ∧ low ≤ 0xDFFF) ∧ cs = '\\' :: 'u' :: (quad ++ rest) ∧
        c = Char.ofNat ((high - 0xD800) * 0x400 + (low - 0xDC00) + 0x10000) := by
  constructor
  · intro h
    unfold readLowSurrogate at h
    split at h
    next => cases h
    next => cases h
    next tail =>
      split at h
      next => cases h
      next low rest' hread =>
        obtain ⟨quad, hquad, rfl⟩ := readHex_eq_ok_iff.1 hread
        split at h
        next => cases h
        next hlow =>
          obtain ⟨rfl, rfl⟩ := Prod.mk.inj (Except.ok.inj h)
          simp only [Bool.or_eq_true, decide_eq_true_eq, not_or, Nat.not_lt] at hlow
          exact ⟨quad, low, hquad, hlow, rfl, rfl⟩
    next => cases h
    next => cases h
  · rintro ⟨quad, low, hquad, hlow, rfl, hc⟩
    have hinside : ¬(low < 0xDC00 ∨ 0xDFFF < low) := by omega
    simp only [readLowSurrogate, hquad.readHex_eq, Bool.or_eq_true, decide_eq_true_eq, hinside,
      if_false, hc]

/-- **An escape is read exactly if it denotes a character.** -/
theorem readEscape_eq_ok_iff :
    readEscape cs = .ok (c, rest) ↔ ∃ es, Escapes es c ∧ cs = es ++ rest := by
  constructor
  · intro h
    unfold readEscape at h
    split at h
    next => cases h
    next tail =>
      split at h
      next => cases h
      next n rest' hread =>
        obtain ⟨quad, hquad, rfl⟩ := readHex_eq_ok_iff.1 hread
        split at h
        next => cases h
        next hlow =>
          simp only [Bool.and_eq_true, decide_eq_true_eq] at hlow
          split at h
          next hhigh =>
            obtain ⟨quad', low, hquad', hlow', rfl, hc⟩ := readLowSurrogate_eq_ok_iff.1 h
            simp only [Bool.and_eq_true, decide_eq_true_eq] at hhigh
            refine ⟨'u' :: (quad ++ '\\' :: 'u' :: quad'), ?_, by simp⟩
            rw [hc]
            exact .pair hquad hhigh hquad' hlow'
          next hhigh =>
            obtain ⟨rfl, rfl⟩ := Prod.mk.inj (Except.ok.inj h)
            simp only [Bool.and_eq_true, decide_eq_true_eq] at hhigh
            exact ⟨'u' :: quad, .unit hquad (by omega), rfl⟩
    next l tail hu =>
      split at h
      next c' hletter =>
        obtain ⟨rfl, rfl⟩ := Prod.mk.inj (Except.ok.inj h)
        exact ⟨[l], .letter (simpleEscape?_eq_some_iff.1 hletter), rfl⟩
      next => cases h
  · rintro ⟨es, he, rfl⟩
    cases he with
    | letter h =>
      simp only [escapeLetters, List.mem_cons, Prod.mk.injEq, List.not_mem_nil, or_false] at h
      rcases h with ⟨rfl, rfl⟩ | ⟨rfl, rfl⟩ | ⟨rfl, rfl⟩ | ⟨rfl, rfl⟩ | ⟨rfl, rfl⟩ | ⟨rfl, rfl⟩ |
        ⟨rfl, rfl⟩ | ⟨rfl, rfl⟩ <;> rfl
    | @unit quad n h hn =>
      have hlow : ¬(0xDC00 ≤ n ∧ n ≤ 0xDFFF) := by omega
      have hhigh : ¬(0xD800 ≤ n ∧ n ≤ 0xDBFF) := by omega
      simp only [List.cons_append, readEscape, h.readHex_eq, Bool.and_eq_true,
        decide_eq_true_eq, hlow, hhigh, if_false]
    | @pair quad quad' high low h hhigh h' hlow =>
      have hhigh' : ¬(0xDC00 ≤ high ∧ high ≤ 0xDFFF) := by omega
      simp only [List.cons_append, List.append_assoc, readEscape, h.readHex_eq, Bool.and_eq_true,
        decide_eq_true_eq, hhigh', hhigh, and_self, if_false, if_true]
      exact readLowSurrogate_eq_ok_iff.2 ⟨quad', low, h', hlow, rfl, rfl⟩

theorem skipEscape_append (h : IsEscape es) (rest : List Char) :
    skipEscape (es ++ rest) = .ok rest := by
  cases h with
  | letter h =>
    simp only [escapeLetters, List.mem_cons, Prod.mk.injEq, List.not_mem_nil, or_false] at h
    rcases h with ⟨rfl, -⟩ | ⟨rfl, -⟩ | ⟨rfl, -⟩ | ⟨rfl, -⟩ | ⟨rfl, -⟩ | ⟨rfl, -⟩ | ⟨rfl, -⟩ |
      ⟨rfl, -⟩ <;> rfl
  | unit h => simp only [List.cons_append, skipEscape, h.readHex_eq]

/-! ## Strings -/

/-- What denotes a character is one escape, or two. -/
theorem Escapes.isStringBody (h : Escapes es c) (hcs : IsStringBody cs) :
    IsStringBody ('\\' :: (es ++ cs)) := by
  cases h with
  | letter h => exact .escape (.letter h) hcs
  | unit h => exact .escape (.unit h) hcs
  | @pair quad quad' _ _ h _ h' =>
    have htwo := IsStringBody.escape (.unit h) (.escape (.unit h') hcs)
    simpa using htwo

/-- What spells a text is a string. -/
theorem Spells.isStringBody (h : Spells body text) : IsStringBody body := by
  induction h with
  | nil => exact .nil
  | plain hc _ ih => exact .plain hc ih
  | escape he _ ih => exact he.isStringBody ih

/-- Plain characters spell themselves. -/
theorem spells_self (h : IsPlainText body) : Spells body body := by
  induction body with
  | nil => exact .nil
  | cons c body ih => exact .plain (h c (by simp)) (ih fun c hc => h c (by simp [hc]))

/-- **A string is passed over up to its closing quote**, whatever it holds. -/
theorem skipString_append (h : IsStringBody body) (rest : List Char) :
    skipString (body ++ '"' :: rest) = .ok rest := by
  induction h with
  | nil => simp [skipString]
  | @plain c cs hc _ ih =>
    have hcontrol : ¬c < ' ' := Char.not_lt.2 hc.notControl
    have hquote := hc.notQuote
    have hbackslash := hc.notBackslash
    rw [List.cons_append, skipString]
    · rw [if_neg hcontrol, ih]
    · exact hquote
    · exact hbackslash
  | escape he _ ih =>
    rw [List.cons_append, List.append_assoc, skipString]
    split
    next hskip =>
      rw [skipEscape_append he] at hskip
      cases hskip
    next hskip =>
      rw [skipEscape_append he] at hskip
      obtain rfl := Except.ok.inj hskip
      exact ih

/-- Where a string ends is not a matter of what follows. -/
theorem stringBody_unique {body' rest' : List Char} (h : IsStringBody body)
    (h' : IsStringBody body') (heq : body ++ '"' :: rest = body' ++ '"' :: rest') :
    body = body' ∧ rest = rest' := by
  have hrest : rest = rest' := by
    have hskip := skipString_append h rest
    rw [heq, skipString_append h'] at hskip
    exact (Except.ok.inj hskip).symm
  subst hrest
  exact ⟨List.append_cancel_right heq, rfl⟩

/-- **A string is read exactly if it spells a text**, which is what is read. -/
theorem readString_eq_ok_iff :
    readString acc cs = .ok (text, rest) ↔ ∃ body spelled, Spells body spelled ∧
      cs = body ++ '"' :: rest ∧ text = acc.reverse ++ spelled := by
  constructor
  · intro h
    fun_induction readString acc cs with
    | case1 => cases h
    | case2 acc tail =>
      obtain ⟨rfl, rfl⟩ := Prod.mk.inj (Except.ok.inj h)
      exact ⟨[], [], .nil, rfl, by simp⟩
    | case3 => cases h
    | case4 acc tail c rest' hescape ih =>
      obtain ⟨es, he, rfl⟩ := readEscape_eq_ok_iff.1 hescape
      obtain ⟨body, spelled, hspells, rfl, rfl⟩ := ih h
      exact ⟨_, _, .escape he hspells, by simp, by simp⟩
    | case5 => cases h
    | case6 acc c tail hquote hbackslash hcontrol ih =>
      obtain ⟨body, spelled, hspells, rfl, rfl⟩ := ih h
      have hc : IsPlain c := ⟨Char.not_lt.1 hcontrol, hquote, hbackslash⟩
      exact ⟨_, _, .plain hc hspells, by simp, by simp⟩
  · rintro ⟨body, spelled, hspells, rfl, rfl⟩
    induction hspells generalizing acc with
    | nil => simp [readString]
    | @plain c cs text hc _ ih =>
      have hcontrol : ¬c < ' ' := Char.not_lt.2 hc.notControl
      rw [List.cons_append, readString]
      · rw [if_neg hcontrol, ih]
        simp
      · exact hc.notQuote
      · exact hc.notBackslash
    | escape he _ ih =>
      rw [List.cons_append, List.append_assoc, readString]
      split
      next hread =>
        rw [readEscape_eq_ok_iff.2 ⟨_, he, rfl⟩] at hread
        cases hread
      next hread =>
        rw [readEscape_eq_ok_iff.2 ⟨_, he, rfl⟩] at hread
        obtain ⟨rfl, rfl⟩ := Prod.mk.inj (Except.ok.inj hread)
        rw [ih]
        simp

end Json
end HookPool
