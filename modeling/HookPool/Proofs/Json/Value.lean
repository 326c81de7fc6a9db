/-
# Values against the grammar

`skipValue` passes over every value of the grammar, however deeply it is nested: the lists and
objects that are still open are a stack of the reader's own, which a value leaves as it was
(`IsValue.skipFrom_eq`).

A value is read as a size exactly if it is a whole number below `2 ^ 64`
(`IsValue.readSize_eq_ok_iff`); no part of another value is taken for one.
-/
import Mathlib.Data.List.DropRight
import HookPool.Proofs.Json.Number
import HookPool.Proofs.Json.String

namespace HookPool
namespace Json

variable {cs rest space value : List Char} {c : Char} {n : Nat} {frame : Frame}
  {open_ outer : List Frame}

/-! ## How a value begins -/

/-- A character that a value may begin with. -/
def Begins (c : Char) : Prop :=
  c ∈ ['n', 't', 'f', '-', '"', '[', '\x7b'] ∨ c.isDigit = true

theorem IsUnsigned.exists_digit (h : IsUnsigned cs) : ∃ d ds, cs = d :: ds ∧ d.isDigit = true := by
  obtain ⟨⟨hdigits, -⟩, -, -⟩ := h
  obtain ⟨d, ds, rfl, hd, -⟩ := Json.exists_digit hdigits
  exact ⟨d, _, rfl, hd⟩

theorem IsValue.exists_cons (h : IsValue value) : ∃ c cs, value = c :: cs ∧ Begins c := by
  cases h with
  | word h =>
    simp only [List.mem_cons, List.not_mem_nil, or_false] at h
    rcases h with rfl | rfl | rfl <;> exact ⟨_, _, rfl, .inl (by simp)⟩
  | unsigned h =>
    obtain ⟨d, ds, rfl, hd⟩ := h.exists_digit
    exact ⟨d, ds, rfl, .inr hd⟩
  | minus => exact ⟨_, _, rfl, .inl (by simp)⟩
  | string => exact ⟨_, _, rfl, .inl (by simp)⟩
  | emptyList => exact ⟨_, _, rfl, .inl (by simp)⟩
  | list => exact ⟨_, _, rfl, .inl (by simp)⟩
  | emptyObject => exact ⟨_, _, rfl, .inl (by simp)⟩
  | object => exact ⟨_, _, rfl, .inl (by simp)⟩

theorem Begins.isBlank_eq_false (h : Begins c) : isBlank c = false := by
  rcases h with h | h
  · simp only [List.mem_cons, List.not_mem_nil, or_false] at h
    rcases h with rfl | rfl | rfl | rfl | rfl | rfl | rfl <;> rfl
  · exact isBlank_of_isDigit h

theorem Begins.ne_close (h : Begins c) (frame : Frame) : c ≠ frame.close := by
  rintro rfl
  cases frame <;> revert h <;> simp [Begins, Frame.close]

/-- White space before a value is passed over with it. -/
theorem IsValue.skipBlank_eq (hvalue : IsValue value) (hspace : IsSpace space) (rest : List Char) :
    skipBlank (space ++ (value ++ rest)) = value ++ rest := by
  obtain ⟨c, cs, rfl, hbegins⟩ := hvalue.exists_cons
  exact skipBlank_append hspace hbegins.isBlank_eq_false _

theorem ends_cons (h : c ∈ [' ', '\t', '\n', '\r'] ++ [',', ']', '\x7d']) (rest : List Char) :
    Ends (c :: rest) := by
  simp only [List.cons_append, List.nil_append, List.mem_cons, List.not_mem_nil, or_false] at h
  refine ⟨?_, ?_⟩ <;> rintro _ _ ⟨⟩ <;>
    rcases h with rfl | rfl | rfl | rfl | rfl | rfl | rfl <;> decide

/-- White space and a comma or a closing bracket end a number. -/
theorem ends_space_cons (hspace : IsSpace space) (hc : c ∈ [',', ']', '\x7d'])
    (rest : List Char) : Ends (space ++ c :: rest) := by
  cases space with
  | nil => exact ends_cons (List.mem_append_right _ hc) rest
  | cons d space => exact ends_cons (List.mem_append_left _ (hspace d (by simp))) _

/-! ## Words and other scalars -/

theorem readIdent_append (word rest : List Char) : readIdent word (word ++ rest) = .ok rest := by
  induction word with
  | nil => cases rest <;> rfl
  | cons c word ih => simpa [readIdent] using ih

theorem skipScalar_word {c : Char} {cs : List Char}
    (h : c :: cs ∈ [['n', 'u', 'l', 'l'], ['t', 'r', 'u', 'e'], ['f', 'a', 'l', 's', 'e']])
    (rest : List Char) : skipScalar c (cs ++ rest) = .ok rest := by
  simp only [List.mem_cons, List.cons.injEq, List.not_mem_nil, or_false] at h
  rcases h with ⟨rfl, rfl⟩ | ⟨rfl, rfl⟩ | ⟨rfl, rfl⟩ <;> exact readIdent_append _ rest

theorem skipScalar_digit (hc : c.isDigit = true) (h : IsUnsigned (c :: cs)) (hrest : Ends rest) :
    skipScalar c (cs ++ rest) = .ok rest := by
  have hne (d : Char) (hd : d.isDigit = false) : ¬(c == d) = true := by
    rw [beq_iff_eq]
    rintro rfl
    simp [hc] at hd
  have hskip := skipNumber_append h hrest
  rw [skipScalar, if_neg (hne 'n' rfl), if_neg (hne 't' rfl), if_neg (hne 'f' rfl),
    if_neg (hne '-' rfl), if_pos hc]
  exact hskip

/-! ## One move of the reader -/

theorem skipFrom_comma (h : skipBlank cs = ',' :: rest) :
    skipFrom .after (frame :: outer) cs = skipFrom frame.stage (frame :: outer) rest := by
  rw [skipFrom]
  split
  next hnil => simp [h] at hnil
  next heq =>
    obtain ⟨rfl, rfl⟩ := List.cons.inj (h.symm.trans heq)
    rfl

theorem skipFrom_close (h : skipBlank cs = frame.close :: rest) :
    skipFrom .after (frame :: outer) cs = skipFrom .after outer rest := by
  rw [skipFrom]
  split
  next hnil => simp [h] at hnil
  next heq =>
    obtain ⟨rfl, rfl⟩ := List.cons.inj (h.symm.trans heq)
    cases frame <;> simp [Frame.close]

theorem skipFrom_member {mid tail : List Char} (h : skipBlank cs = '"' :: rest)
    (hstring : skipString rest = .ok mid) (hcolon : skipBlank mid = ':' :: tail) :
    skipFrom .member open_ cs = skipFrom .value open_ tail := by
  rw [skipFrom]
  split
  next hnil => simp [h] at hnil
  next heq =>
    obtain ⟨rfl, rfl⟩ := List.cons.inj (h.symm.trans heq)
    simp only [bne_self_eq_false, Bool.false_eq_true, if_false]
    split
    next hskip => simp [hstring] at hskip
    next hskip =>
      obtain rfl := Except.ok.inj (hstring.symm.trans hskip)
      split
      next hnil => simp [hcolon] at hnil
      next heq' =>
        obtain ⟨rfl, rfl⟩ := List.cons.inj (hcolon.symm.trans heq')
        rfl

theorem skipFrom_empty {tail : List Char} (h : skipBlank cs = c :: rest)
    (hopening : opening? c = some frame) (hclose : skipBlank rest = frame.close :: tail) :
    skipFrom .value open_ cs = skipFrom .after open_ tail := by
  rw [skipFrom]
  split
  next hnil => simp [h] at hnil
  next heq =>
    obtain ⟨rfl, rfl⟩ := List.cons.inj (h.symm.trans heq)
    simp only [hopening]
    split
    next hnil => simp [hclose] at hnil
    next heq' =>
      obtain ⟨rfl, rfl⟩ := List.cons.inj (hclose.symm.trans heq')
      simp

theorem skipFrom_open {tail : List Char} {d : Char} (h : skipBlank cs = c :: rest)
    (hopening : opening? c = some frame) (hfirst : skipBlank rest = d :: tail)
    (hd : d ≠ frame.close) :
    skipFrom .value open_ cs = skipFrom frame.stage (frame :: open_) (d :: tail) := by
  rw [skipFrom]
  split
  next hnil => simp [h] at hnil
  next heq =>
    obtain ⟨rfl, rfl⟩ := List.cons.inj (h.symm.trans heq)
    simp only [hopening]
    split
    next hnil => simp [hfirst] at hnil
    next heq' =>
      obtain ⟨rfl, rfl⟩ := List.cons.inj (hfirst.symm.trans heq')
      simp [hd]

theorem skipFrom_scalar {tail : List Char} (h : skipBlank cs = c :: rest)
    (hopening : opening? c = none) (hscalar : skipScalar c rest = .ok tail) :
    skipFrom .value open_ cs = skipFrom .after open_ tail := by
  rw [skipFrom]
  split
  next hnil => simp [h] at hnil
  next heq =>
    obtain ⟨rfl, rfl⟩ := List.cons.inj (h.symm.trans heq)
    simp only [hopening]
    split
    next hskip => simp [hscalar] at hskip
    next hskip =>
      obtain rfl := Except.ok.inj (hscalar.symm.trans hskip)
      rfl

/-! ## Parts of a list or an object -/

/-- A part of a list or object that is open is passed over, up to the comma or bracket after it. -/
structure Passes (frame : Frame) (part : List Char) : Prop where
  /-- It is not taken for the end of an empty list or object. -/
  begins : ∀ rest, ∃ d tail, skipBlank (part ++ rest) = d :: tail ∧ d ≠ frame.close
  passed : ∀ {outer : List Frame} {cs rest : List Char} {c : Char}, c ∈ [',', ']', '\x7d'] →
    skipBlank cs = skipBlank (part ++ c :: rest) → ∃ space, IsSpace space ∧
      skipFrom frame.stage (frame :: outer) cs =
        skipFrom .after (frame :: outer) (space ++ c :: rest)

variable {parts : List (List Char)}

/-- What follows a part is a comma or a closing bracket. -/
theorem exists_follower (frame : Frame) (parts : List (List Char)) (rest : List Char) :
    ∃ c tail, c ∈ [',', ']', '\x7d'] ∧
      parts.flatMap (',' :: ·) ++ frame.close :: rest = c :: tail := by
  cases parts with
  | nil => cases frame <;> exact ⟨_, _, by simp [Frame.close], rfl⟩
  | cons part parts => exact ⟨',', _, by simp, rfl⟩

/-- The parts after the first are passed over one by one, each with its comma. -/
theorem skipFrom_parts (h : ∀ part ∈ parts, Passes frame part) (hspace : IsSpace space) :
    skipFrom .after (frame :: outer)
        (space ++ (parts.flatMap (',' :: ·) ++ frame.close :: rest)) =
      skipFrom .after outer rest := by
  induction parts generalizing space with
  | nil => exact skipFrom_close (skipBlank_append hspace (by cases frame <;> rfl) rest)
  | cons part parts ih =>
    obtain ⟨c, tail, hc, hfollow⟩ := exists_follower frame parts rest
    have hcomma : skipBlank (space ++ ((part :: parts).flatMap (',' :: ·) ++ frame.close :: rest)) =
        ',' :: (part ++ c :: tail) := by
      rw [List.flatMap_cons, List.append_assoc, hfollow]
      exact skipBlank_append hspace rfl _
    obtain ⟨space', hspace', hpassed⟩ := (h part (by simp)).passed hc rfl
    rw [skipFrom_comma hcomma, hpassed, ← hfollow]
    exact ih (fun p hp => h p (by simp [hp])) hspace'

/-- **A list or an object is passed over if its parts are**, and what was open stays so. -/
theorem skipFrom_separated (hne : parts ≠ []) (h : ∀ part ∈ parts, Passes frame part)
    (hopening : opening? c = some frame)
    (hcs : skipBlank cs = c :: (separated parts ++ frame.close :: rest)) :
    skipFrom .value open_ cs = skipFrom .after open_ rest := by
  cases parts with
  | nil => exact absurd rfl hne
  | cons part parts =>
    obtain ⟨e, tail, he, hfollow⟩ := exists_follower frame parts rest
    rw [separated, List.append_assoc, hfollow] at hcs
    have hpart := h part (by simp)
    obtain ⟨d, tail', hfirst, hd⟩ := hpart.begins (e :: tail)
    -- the reader has looked for a closing bracket, so the space before the part is gone
    have hsame : skipBlank (d :: tail') = skipBlank (part ++ e :: tail) := by
      rw [← hfirst]
      exact List.dropWhile_idempotent isBlank _
    obtain ⟨space, hspace, hpassed⟩ := hpart.passed he hsame
    rw [skipFrom_open hcs hopening hfirst hd, hpassed, ← hfollow]
    exact skipFrom_parts (fun p hp => h p (by simp [hp])) hspace

/-- A value is passed over from the white space before it, whatever lists and objects are open. -/
def IsPassed (value : List Char) : Prop :=
  ∀ {open_ : List Frame} {cs rest : List Char}, skipBlank cs = value ++ rest → Ends rest →
    skipFrom .value open_ cs = skipFrom .after open_ rest

theorem Element.passes {e : Element} (hspaced : e.IsSpaced) (hvalue : IsValue e.value)
    (h : IsPassed e.value) : Passes .list e.chars := by
  have hfirst (rest : List Char) : skipBlank (e.chars ++ rest) = e.value ++ (e.after ++ rest) := by
    rw [Element.chars, List.append_assoc, List.append_assoc, hvalue.skipBlank_eq hspaced.before]
  refine ⟨fun rest => ?_, fun hc hskip => ?_⟩
  · obtain ⟨d, ds, hd, hbegins⟩ := hvalue.exists_cons
    rw [hfirst, hd]
    exact ⟨d, _, rfl, hbegins.ne_close _⟩
  · exact ⟨e.after, hspaced.after, h (hskip.trans (hfirst _)) (ends_space_cons hspaced.after hc _)⟩

/-- A member begins with the quote before its key. -/
theorem Member.IsSpaced.skipBlank_eq {m : Member} (h : m.IsSpaced) (rest : List Char) :
    skipBlank (m.chars ++ rest) = '"' :: (m.fromKey ++ rest) := by
  rw [Member.chars, List.append_assoc]
  exact skipBlank_append h.before rfl _

theorem Member.fromKey_append (m : Member) (rest : List Char) :
    m.fromKey ++ rest = m.key ++ '"' :: (m.beforeColon ++
      ':' :: (m.afterColon ++ (m.value ++ (m.after ++ rest)))) := by
  simp [Member.fromKey]

theorem Member.passes {m : Member} (hspaced : m.IsSpaced) (hvalue : IsValue m.value)
    (h : IsPassed m.value) : Passes .object m.chars := by
  refine ⟨fun rest => ⟨'"', _, hspaced.skipBlank_eq rest, by decide⟩,
    fun {outer cs rest c} hc hskip => ?_⟩
  have hkey := hskip.trans (hspaced.skipBlank_eq _)
  rw [m.fromKey_append] at hkey
  have hcolon := skipBlank_append (c := ':') hspaced.beforeColon rfl
    (m.afterColon ++ (m.value ++ (m.after ++ c :: rest)))
  refine ⟨m.after, hspaced.after, ?_⟩
  exact (skipFrom_member hkey (skipString_append hspaced.key _) hcolon).trans
    (h (hvalue.skipBlank_eq hspaced.afterColon _) (ends_space_cons hspaced.after hc rest))

/-! ## Values -/

/-- **Every value is passed over**, by induction on how it is built: the parts of a list or an
object are passed over in the frame that it opens. -/
theorem IsValue.skipFrom_eq (hvalue : IsValue value) : IsPassed value := by
  induction hvalue with
  | @word word h =>
    intro open_ cs rest hcs _
    cases word with
    | nil => simp at h
    | cons c word =>
      have hopening : opening? c = none := by
        simp only [List.mem_cons, List.cons.injEq, List.not_mem_nil, or_false] at h
        rcases h with ⟨rfl, -⟩ | ⟨rfl, -⟩ | ⟨rfl, -⟩ <;> rfl
      exact skipFrom_scalar hcs hopening (skipScalar_word h rest)
  | unsigned h =>
    intro open_ cs rest hcs hrest
    obtain ⟨d, ds, rfl, hd⟩ := h.exists_digit
    have hopening : opening? d = none := by
      simp only [opening?, beq_iff_eq]
      rw [if_neg, if_neg] <;> rintro rfl <;> exact absurd hd (by decide)
    exact skipFrom_scalar hcs hopening (skipScalar_digit hd h hrest)
  | minus h =>
    intro open_ cs rest hcs hrest
    exact skipFrom_scalar hcs rfl (skipNumber_append h hrest)
  | @string body h =>
    intro open_ cs rest hcs _
    rw [List.cons_append, List.append_assoc] at hcs
    exact skipFrom_scalar hcs rfl (skipString_append h rest)
  | @emptyList space h =>
    intro open_ cs rest hcs _
    rw [List.cons_append, List.append_assoc] at hcs
    exact skipFrom_empty hcs rfl (skipBlank_append h rfl _)
  | @list elements hne hspaced hvalues ih =>
    intro open_ cs rest hcs _
    rw [List.cons_append, List.append_assoc] at hcs
    have hparts : ∀ part ∈ elements.map Element.chars, Passes .list part := by
      intro part hpart
      obtain ⟨e, he, rfl⟩ := List.mem_map.1 hpart
      exact Element.passes (hspaced e he) (hvalues e he) (ih e he)
    exact skipFrom_separated (mt List.map_eq_nil_iff.1 hne) hparts rfl hcs
  | @emptyObject space h =>
    intro open_ cs rest hcs _
    rw [List.cons_append, List.append_assoc] at hcs
    exact skipFrom_empty hcs rfl (skipBlank_append h rfl _)
  | @object members hne hspaced hvalues ih =>
    intro open_ cs rest hcs _
    rw [List.cons_append, List.append_assoc] at hcs
    have hparts : ∀ part ∈ members.map Member.chars, Passes .object part := by
      intro part hpart
      obtain ⟨m, hm, rfl⟩ := List.mem_map.1 hpart
      exact Member.passes (hspaced m hm) (hvalues m hm) (ih m hm)
    exact skipFrom_separated (mt List.map_eq_nil_iff.1 hne) hparts rfl hcs

theorem IsValue.skipValue_eq (hvalue : IsValue value) (hspace : IsSpace space) (hrest : Ends rest) :
    skipValue (space ++ (value ++ rest)) = .ok rest := by
  rw [skipValue, hvalue.skipFrom_eq (hvalue.skipBlank_eq hspace rest) hrest, skipFrom]

/-- Where no fraction and no exponent comes next, there is none. -/
theorem NoMark.eq_nil {fraction exponent : List Char} (h : NoMark (fraction ++ (exponent ++ rest)))
    (hfraction : IsFraction fraction) (hexponent : IsExponent exponent) :
    fraction = [] ∧ exponent = [] := by
  cases hfraction with
  | point => exact absurd (by simp) (h _ _ rfl)
  | none =>
    cases hexponent with
    | none => exact ⟨rfl, rfl⟩
    | power hletter =>
      exact absurd (List.mem_cons_of_mem '.' hletter) (h _ _ rfl)

/-- **A value is read as a size exactly if it is one**, and then it is read to its end. -/
theorem IsValue.readSize_eq_ok_iff {rest' : List Char} (hvalue : IsValue value)
    (hspace : IsSpace space) (hrest : Ends rest) :
    readSize (space ++ (value ++ rest)) = .ok (n, rest') ↔ IsSize value n ∧ rest' = rest := by
  rw [Json.readSize_eq_ok_iff]
  constructor
  · rintro ⟨space', whole, hspace', hsize, heq, hrest'⟩
    obtain ⟨d, ds, rfl, hd, hds⟩ := exists_digit hsize.whole.digits
    have hsame : value ++ rest = d :: (ds ++ rest') := by
      rw [← hvalue.skipBlank_eq hspace, heq]
      exact skipBlank_append hspace' (isBlank_of_isDigit hd) _
    -- no other value begins with a digit
    have hunsigned : IsUnsigned value := by
      cases hvalue with
      | unsigned h => exact h
      | word h =>
        simp only [List.mem_cons, List.not_mem_nil, or_false] at h
        rcases h with rfl | rfl | rfl <;> obtain ⟨rfl, -⟩ := List.cons.inj hsame <;>
          exact absurd hd (by decide)
      | _ => obtain ⟨rfl, -⟩ := List.cons.inj hsame; exact absurd hd (by decide)
    obtain ⟨hwhole, hfraction, hexponent⟩ := hunsigned
    rw [List.append_assoc, List.append_assoc, ← List.cons_append] at hsame
    -- the digits are all that was read of it, and what ends them leaves no room for a fraction
    obtain ⟨rfl, rfl⟩ := digits_unique hwhole.digits.isDigit hsize.whole.digits.isDigit
      (hfraction.noDigit hexponent hrest) hrest'.noDigit hsame
    obtain ⟨rfl, rfl⟩ := hrest'.noMark.eq_nil hfraction hexponent
    simpa using hsize
  · rintro ⟨hsize, rfl⟩
    exact ⟨space, value, hspace, hsize, rfl, hrest⟩

end Json
end HookPool
