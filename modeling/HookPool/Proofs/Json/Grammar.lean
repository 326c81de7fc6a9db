/-
# The grammar of JSON texts

What a JSON text is, told without a reader, part by part:

| part | characters |
|---|---|
| `IsSpace` | spaces, tabs, line feeds and carriage returns |
| `IsWhole` | digits, with a zero in front only if it is alone |
| `IsUnsigned` | a whole number, a fraction or none, an exponent or none |
| `IsStringBody` | what may stand between two quotes: plain characters and escapes |
| `IsValue` | a word, a number, a string, a list or an object |
| `IsObjectText` | an object with white space around it, and which members it has |

An escape of four hexadecimal digits is a unit of UTF-16, so not every string that is well formed
denotes a text: half of a pair denotes no character.  `Spells` is the text that a string denotes.
-/
import HookPool.Json.Text
import HookPool.Proofs.Text.Numeral

namespace HookPool
namespace Json

/-- White space, of any amount. -/
def IsSpace (cs : List Char) : Prop := ∀ c ∈ cs, c ∈ [' ', '\t', '\n', '\r']

instance (cs : List Char) : Decidable (IsSpace cs) :=
  List.decidableBAll _ cs

/-! ## Numbers -/

/-- A whole number without a sign. -/
structure IsWhole (cs : List Char) : Prop where
  digits : Text.IsDigits cs
  noLeadingZero : cs.head? = some '0' → cs = ['0']

/-- A fraction, or nothing. -/
inductive IsFraction : List Char → Prop where
  | none : IsFraction []
  | point {ds : List Char} (h : Text.IsDigits ds) : IsFraction ('.' :: ds)

/-- An exponent, or nothing. -/
inductive IsExponent : List Char → Prop where
  | none : IsExponent []
  | power {letter : Char} {sign ds : List Char} (hletter : letter ∈ ['e', 'E'])
    (hsign : sign ∈ [[], ['+'], ['-']]) (h : Text.IsDigits ds) :
    IsExponent (letter :: (sign ++ ds))

/-- A number without a sign. -/
inductive IsUnsigned : List Char → Prop where
  | mk {whole fraction exponent : List Char} (hwhole : IsWhole whole)
    (hfraction : IsFraction fraction) (hexponent : IsExponent exponent) :
    IsUnsigned (whole ++ (fraction ++ exponent))

/-! ## Strings -/

/-- A hexadecimal digit, in either case, and its value. -/
def HexDigit (c : Char) (n : Nat) : Prop :=
  n < 16 ∧ (c = n.digitChar ∨ c = n.digitChar.toUpper)

/-- Four hexadecimal digits and their value. -/
inductive HexQuad : List Char → Nat → Prop where
  | mk {a b c d : Char} {i j k l : Nat} (ha : HexDigit a i) (hb : HexDigit b j)
    (hc : HexDigit c k) (hd : HexDigit d l) :
    HexQuad [a, b, c, d] (((i * 16 + j) * 16 + k) * 16 + l)

/-- The letters that may follow a backslash, with the characters that they denote. -/
def escapeLetters : List (Char × Char) :=
  [('"', '"'), ('\\', '\\'), ('/', '/'), ('b', '\x08'), ('f', '\x0c'), ('n', '\n'), ('r', '\r'),
    ('t', '\t')]

/-- A character that stands for itself. -/
structure IsPlain (c : Char) : Prop where
  notControl : ' ' ≤ c
  notQuote : c ≠ '"'
  notBackslash : c ≠ '\\'

instance (c : Char) : Decidable (IsPlain c) :=
  decidable_of_iff (' ' ≤ c ∧ c ≠ '"' ∧ c ≠ '\\')
    ⟨fun ⟨h, hq, hb⟩ => ⟨h, hq, hb⟩, fun ⟨h, hq, hb⟩ => ⟨h, hq, hb⟩⟩

/-- Characters that stand for themselves. -/
def IsPlainText (cs : List Char) : Prop := ∀ c ∈ cs, IsPlain c

instance (cs : List Char) : Decidable (IsPlainText cs) :=
  List.decidableBAll _ cs

/-- What may follow a backslash. -/
inductive IsEscape : List Char → Prop where
  | letter {l c : Char} (h : (l, c) ∈ escapeLetters) : IsEscape [l]
  | unit {quad : List Char} {n : Nat} (h : HexQuad quad n) : IsEscape ('u' :: quad)

/-- What may stand between two quotes. -/
inductive IsStringBody : List Char → Prop where
  | nil : IsStringBody []
  | plain {c : Char} {cs : List Char} (hc : IsPlain c) (h : IsStringBody cs) :
    IsStringBody (c :: cs)
  | escape {es cs : List Char} (he : IsEscape es) (h : IsStringBody cs) :
    IsStringBody ('\\' :: (es ++ cs))

/-- What follows a backslash, and the character that it denotes: a letter's, that of a unit which is
no half of a pair, or that of both halves of a pair. -/
inductive Escapes : List Char → Char → Prop where
  | letter {l c : Char} (h : (l, c) ∈ escapeLetters) : Escapes [l] c
  | unit {quad : List Char} {n : Nat} (h : HexQuad quad n) (hn : n < 0xD800 ∨ 0xDFFF < n) :
    Escapes ('u' :: quad) (Char.ofNat n)
  | pair {quad quad' : List Char} {high low : Nat} (h : HexQuad quad high)
    (hhigh : 0xD800 ≤ high ∧ high ≤ 0xDBFF) (h' : HexQuad quad' low)
    (hlow : 0xDC00 ≤ low ∧ low ≤ 0xDFFF) :
    Escapes ('u' :: (quad ++ '\\' :: 'u' :: quad'))
      (Char.ofNat ((high - 0xD800) * 0x400 + (low - 0xDC00) + 0x10000))

/-- What stands between two quotes, and the text that it denotes. -/
inductive Spells : List Char → List Char → Prop where
  | nil : Spells [] []
  | plain {c : Char} {cs text : List Char} (hc : IsPlain c) (h : Spells cs text) :
    Spells (c :: cs) (c :: text)
  | escape {es cs text : List Char} {c : Char} (he : Escapes es c) (h : Spells cs text) :
    Spells ('\\' :: (es ++ cs)) (c :: text)

/-! ## Lists and objects -/

/-- Parts with commas between them. -/
def separated : List (List Char) → List Char
  | [] => []
  | part :: parts => part ++ parts.flatMap (',' :: ·)

/-- An element of a list with the white space around it. -/
structure Element where
  before : List Char
  value : List Char
  after : List Char

/-- A member of an object with the white space around its parts. -/
structure Member where
  before : List Char
  /-- What stands between the quotes. -/
  key : List Char
  beforeColon : List Char
  afterColon : List Char
  value : List Char
  after : List Char

def Element.chars (e : Element) : List Char := e.before ++ (e.value ++ e.after)

/-- There is nothing but white space around the value. -/
structure Element.IsSpaced (e : Element) : Prop where
  before : IsSpace e.before
  after : IsSpace e.after

/-- The characters of a member from its key on. -/
def Member.fromKey (m : Member) : List Char :=
  m.key ++ '"' :: (m.beforeColon ++ ':' :: (m.afterColon ++ (m.value ++ m.after)))

def Member.chars (m : Member) : List Char := m.before ++ '"' :: m.fromKey

/-- The key is a string, and there is nothing but white space around it and the value. -/
structure Member.IsSpaced (m : Member) : Prop where
  before : IsSpace m.before
  key : IsStringBody m.key
  beforeColon : IsSpace m.beforeColon
  afterColon : IsSpace m.afterColon
  after : IsSpace m.after

/-- A value. -/
inductive IsValue : List Char → Prop where
  | word {cs : List Char} (h : cs ∈ [['n', 'u', 'l', 'l'], ['t', 'r', 'u', 'e'],
      ['f', 'a', 'l', 's', 'e']]) : IsValue cs
  | unsigned {cs : List Char} (h : IsUnsigned cs) : IsValue cs
  | minus {cs : List Char} (h : IsUnsigned cs) : IsValue ('-' :: cs)
  | string {cs : List Char} (h : IsStringBody cs) : IsValue ('"' :: (cs ++ ['"']))
  | emptyList {cs : List Char} (h : IsSpace cs) : IsValue ('[' :: (cs ++ [']']))
  | list {elements : List Element} (hne : elements ≠ [])
    (hspaced : ∀ e ∈ elements, e.IsSpaced) (h : ∀ e ∈ elements, IsValue e.value) :
    IsValue ('[' :: (separated (elements.map Element.chars) ++ [']']))
  | emptyObject {cs : List Char} (h : IsSpace cs) : IsValue ('\x7b' :: (cs ++ ['\x7d']))
  | object {members : List Member} (hne : members ≠ [])
    (hspaced : ∀ m ∈ members, m.IsSpaced) (h : ∀ m ∈ members, IsValue m.value) :
    IsValue ('\x7b' :: (separated (members.map Member.chars) ++ ['\x7d']))

/-- A text that is an object with the given members. -/
inductive IsObjectText : List Member → List Char → Prop where
  | empty {before inside after : List Char} (hbefore : IsSpace before) (hinside : IsSpace inside)
    (hafter : IsSpace after) : IsObjectText [] (before ++ '\x7b' :: (inside ++ '\x7d' :: after))
  | members {before after : List Char} {members : List Member} (hbefore : IsSpace before)
    (hne : members ≠ []) (hspaced : ∀ m ∈ members, m.IsSpaced)
    (h : ∀ m ∈ members, IsValue m.value) (hafter : IsSpace after) :
    IsObjectText members
      (before ++ '\x7b' :: (separated (members.map Member.chars) ++ '\x7d' :: after))

end Json
end HookPool
