/-
# Tokens

A script is a row of bytes; here each byte is the character of the same number.  The text is cut
into names, numerals, strings, reserved words and symbols, with white space and comments dropped.
Each token keeps the text by which a message quotes it and the line on which it ends.

`tokenize` reads on until the end of the text or the first piece that is no token; that fault is
found only by a reader that gets so far.
-/
import HookPool.Script.Number
import HookPool.Text.Utf8

namespace HookPool
namespace Script

/-- The characters of the same numbers as the bytes. -/
def charsOfBytes (bytes : ByteArray) : List Char :=
  bytes.toList.map fun b => Char.ofNat b.toNat

/-- The bytes of the same numbers as the characters. -/
def bytesOfChars (cs : List Char) : ByteArray :=
  cs.foldl (fun bytes c => bytes.push (UInt8.ofNat c.toNat)) ByteArray.empty

/-- A token of a script. -/
inductive Token where
  /-- A reserved word or an operator. -/
  | symbol (text : String)
  /-- A byte that begins no token and is not printable. -/
  | stray (byte : Nat)
  | name (name : String)
  | string (value : ByteArray)
  | number (value : Number)
  | eof
  deriving DecidableEq

/-- A token in its text. -/
structure Lexeme where
  token : Token
  /-- How a message quotes the token, if it does at all. -/
  quoted : Option (List Char)
  /-- The line on which the token ends. -/
  line : Nat

/-- Why a text cannot be cut into tokens, or is no script. -/
structure SyntaxFault where
  line : Nat
  message : List Char

/-- A text cut into tokens; after the last one comes the end or a fault. -/
structure Lexed where
  lexemes : List Lexeme
  ending : Except SyntaxFault Lexeme

/-- The words that are no names. -/
def reservedWords : List String :=
  ["and", "break", "do", "else", "elseif", "end", "false", "for", "function", "goto", "if", "in",
    "local", "nil", "not", "or", "repeat", "return", "then", "true", "until", "while"]

/-- Operators of more than one character, the longest first. -/
def longOperators : List (List Char) :=
  ["...", "..", "==", ">=", "<=", "~=", "<<", ">>", "//", "::"].map String.toList

def isNameStart (c : Char) : Bool :=
  c.isAlpha || c == '_'

def isNameChar (c : Char) : Bool :=
  c.isAlphanum || c == '_'

def isPrintable (c : Char) : Bool :=
  0x20 ≤ c.toNat && c.toNat ≤ 0x7E

/-- The part of a text before its first NUL. -/
def uptoNul (cs : List Char) : List Char :=
  cs.takeWhile (· != '\x00')

/-- A text between quotes, as messages quote it. -/
def inQuotes (cs : List Char) : List Char :=
  '\'' :: (uptoNul cs ++ ['\''])

/-- How messages quote the end of the text. -/
def eofText : List Char := "<eof>".toList

/-- A message with the text near which the fault was found. -/
def nearText (message : String) (quoted : Option (List Char)) : List Char :=
  match quoted with
  | none => message.toList
  | some q => message.toList ++ " near ".toList ++ q

def isNewline (c : Char) : Bool :=
  c == '\n' || c == '\r'

/-- Drops a line break: one character, or two different ones in a row. -/
def dropNewline : List Char → List Char
  | a :: b :: rest => if isNewline b && a != b then rest else b :: rest
  | _ => []

/-! ## Long brackets -/

/-- The level of a long bracket that opens at the text after `[`, and what follows it. -/
def openLong? (cs : List Char) : Option (Nat × List Char) :=
  let marks := cs.takeWhile (· == '=')
  match cs.drop marks.length with
  | '[' :: rest => some (marks.length, rest)
  | _ => none

/-- What follows a closing long bracket of the level, if the text after `]` is one. -/
def closeLong? (level : Nat) (cs : List Char) : Option (List Char) :=
  if (cs.take level).all (· == '=') then
    match cs.drop level with
    | ']' :: rest => if (cs.take level).length = level then some rest else none
    | _ => none
  else none

/-- The content of a long bracket, last character first, with the line on which it ends and the text
after it; or, if the bracket is never closed, the line on which the text ends. -/
def readLong (level : Nat) (acc : List Char) (line : Nat) :
    Nat → List Char → Except Nat (List Char × Nat × List Char)
  | 0, _ => .error line
  | fuel + 1, cs =>
    match cs with
    | [] => .error line
    | ']' :: rest =>
      match closeLong? level rest with
      | some after => .ok (acc, line, after)
      | none => readLong level (']' :: acc) line fuel rest
    | c :: rest =>
      if isNewline c then readLong level ('\n' :: acc) (line + 1) fuel (dropNewline (c :: rest))
      else readLong level (c :: acc) line fuel rest

/-- A long bracket after its opening; a line break right after the opening is dropped. -/
def longBracket (kind : String) (level line : Nat) (cs : List Char) :
    Except SyntaxFault (List Char × Nat × List Char) :=
  let (start, startLine) :=
    match cs with
    | c :: _ => if isNewline c then (dropNewline cs, line + 1) else (cs, line)
    | [] => ([], line)
  match readLong level [] startLine (start.length + 1) start with
  | .ok (acc, endLine, rest) => .ok (acc.reverse, endLine, rest)
  | .error endLine => .error ⟨endLine, nearText
      ("unfinished long " ++ kind ++ " (starting at line " ++ toString line ++ ")") (some eofText)⟩

/-! ## Strings -/

/-- The largest number that an escape of a code point may denote. -/
def maxEscape : Nat := Nat.pow 2 31 - 1

/-- Splits six bits off `n` at a time until the rest fits a first byte, which holds numbers up to
`firstMax`; the marks of the first byte are its high bits. -/
def extendedBytes (n firstMax : Nat) (acc : List Char) : Nat → List Char
  | 0 => acc
  | fuel + 1 =>
    let acc := Char.ofNat (0x80 + n % 64) :: acc
    let n := n / 64
    let firstMax := firstMax / 2
    if firstMax < n then extendedBytes n firstMax acc fuel
    else Char.ofNat (0xFE - 2 * firstMax + n) :: acc

/-- The bytes of a number below `2 ^ 31` in UTF-8, extended to six bytes. -/
def utf8Extended (n : Nat) : List Char :=
  if n < 0x80 then [Char.ofNat n] else extendedBytes n 0x3F [] 6

/-- Fails in an escape: `before` is the string so far, `raw` the escape so far, and the character
that does not fit is quoted too. -/
def escapeFault {α : Type} (message : String) (line : Nat) (before raw rest : List Char) :
    Except SyntaxFault α :=
  .error ⟨line, nearText message (some (inQuotes (before ++ raw ++ rest.take 1)))⟩

/-- The characters of an escape of one letter. -/
def letterEscape? : Char → Option Char
  | 'a' => some '\x07'
  | 'b' => some '\x08'
  | 'f' => some '\x0c'
  | 'n' => some '\n'
  | 'r' => some '\r'
  | 't' => some '\t'
  | 'v' => some '\x0b'
  | '\\' => some '\\'
  | '"' => some '"'
  | '\'' => some '\''
  | _ => none

/-- The digits of a code point up to the closing brace. -/
def readCodePoint (line : Nat) (before : List Char) (n : Nat) (raw : List Char) :
    List Char → Except SyntaxFault (List Char × List Char)
  | [] => escapeFault "missing '\x7d'" line before raw []
  | c :: rest =>
    match hexValue c with
    | some d =>
      if maxEscape / 16 < n then escapeFault "UTF-8 value too large" line before raw (c :: rest)
      else readCodePoint line before (n * 16 + d) (raw ++ [c]) rest
    | none =>
      if c == '\x7d' then .ok (utf8Extended n, rest)
      else escapeFault "missing '\x7d'" line before raw (c :: rest)
where
  hexValue (c : Char) : Option Nat := Number.hexDigit? c

/-- Reads an escape after its backslash: its characters and what follows. -/
def readEscape (line : Nat) (before : List Char) (cs : List Char) :
    Except SyntaxFault (List Char × List Char) :=
  match cs with
  | [] => .ok ([], [])
  | 'x' :: rest =>
    match rest with
    | [] => escapeFault "hexadecimal digit expected" line before ['\\', 'x'] []
    | a :: rest =>
      match Number.hexDigit? a with
      | none => escapeFault "hexadecimal digit expected" line before ['\\', 'x'] (a :: rest)
      | some high =>
        match rest with
        | [] => escapeFault "hexadecimal digit expected" line before ['\\', 'x', a] []
        | b :: rest =>
          match Number.hexDigit? b with
          | none => escapeFault "hexadecimal digit expected" line before ['\\', 'x', a] (b :: rest)
          | some low => .ok ([Char.ofNat (high * 16 + low)], rest)
  | 'u' :: rest =>
    match rest with
    | '\x7b' :: rest =>
      match rest with
      | [] => escapeFault "hexadecimal digit expected" line before ['\\', 'u', '\x7b'] []
      | c :: rest =>
        match Number.hexDigit? c with
        | none => escapeFault "hexadecimal digit expected" line before ['\\', 'u', '\x7b'] (c :: rest)
        | some d => readCodePoint line before d ['\\', 'u', '\x7b', c] rest
    | rest => escapeFault "missing '\x7b'" line before ['\\', 'u'] rest
  | c :: rest =>
    match letterEscape? c with
    | some e => .ok ([e], rest)
    | none =>
      if c.isDigit then
        let digits := ((c :: rest).take 3).takeWhile Char.isDigit
        let rest := (c :: rest).drop digits.length
        let n := Number.rowValue 10 digits
        if 255 < n then escapeFault "decimal escape too large" line before ('\\' :: digits) rest
        else .ok ([Char.ofNat n], rest)
      else escapeFault "invalid escape sequence" line before ['\\'] (c :: rest)

/-- Drops white space and counts the line breaks in it. -/
def dropSpace (line : Nat) : Nat → List Char → Nat × List Char
  | 0, cs => (line, cs)
  | _, [] => (line, [])
  | fuel + 1, c :: rest =>
    if isNewline c then dropSpace (line + 1) fuel (dropNewline (c :: rest))
    else if Number.isSpace c then dropSpace line fuel rest
    else (line, c :: rest)

/-- Reads a string up to its closing quote; `acc` holds its characters so far, last first. -/
def readString (quote : Char) (acc : List Char) (line : Nat) :
    Nat → List Char → Except SyntaxFault (List Char × Nat × List Char)
  | 0, _ => .error ⟨line, nearText "unfinished string" (some eofText)⟩
  | fuel + 1, cs =>
    match cs with
    | [] => .error ⟨line, nearText "unfinished string" (some eofText)⟩
    | '\\' :: rest =>
      match rest with
      | 'z' :: rest =>
        let (line, rest) := dropSpace line rest.length rest
        readString quote acc line fuel rest
      | c :: tail =>
        if isNewline c then readString quote ('\n' :: acc) (line + 1) fuel (dropNewline (c :: tail))
        else
          match readEscape line (quote :: acc.reverse) (c :: tail) with
          | .error fault => .error fault
          | .ok (cs, rest) => readString quote (cs.reverse ++ acc) line fuel rest
      | [] => .error ⟨line, nearText "unfinished string" (some eofText)⟩
    | c :: rest =>
      if c == quote then .ok (acc.reverse, line, rest)
      else if isNewline c then
        .error ⟨line, nearText "unfinished string" (some (inQuotes (quote :: acc.reverse)))⟩
      else readString quote (c :: acc) line fuel rest

/-! ## Numerals -/

/-- The text of a numeral: digits, points and exponents, and a letter that touches it. -/
def numeralText (marks : List Char) (acc : List Char) : Nat → List Char → List Char × List Char
  | 0, cs => (acc.reverse, cs)
  | _, [] => (acc.reverse, [])
  | fuel + 1, c :: rest =>
    if marks.contains c then
      match rest with
      | '+' :: rest => numeralText marks ('+' :: c :: acc) fuel rest
      | '-' :: rest => numeralText marks ('-' :: c :: acc) fuel rest
      | rest => numeralText marks (c :: acc) fuel rest
    else if Number.isHexDigit c || c == '.' then numeralText marks (c :: acc) fuel rest
    else if isNameStart c then ((c :: acc).reverse, rest)
    else (acc.reverse, c :: rest)

/-- Reads a numeral. -/
def readNumeral (line : Nat) (cs : List Char) : Except SyntaxFault (Number × List Char × List Char) :=
  let (text, rest) :=
    match cs with
    | '0' :: 'x' :: rest => numeralText ['p', 'P'] ['x', '0'] rest.length rest
    | '0' :: 'X' :: rest => numeralText ['p', 'P'] ['X', '0'] rest.length rest
    | c :: rest => numeralText ['e', 'E'] [c] rest.length rest
    | [] => ([], [])
  match Number.ofChars? text with
  | some n => .ok (n, text, rest)
  | none => .error ⟨line, nearText "malformed number" (some (inQuotes text))⟩

/-! ## The whole text -/

/-- How messages quote a symbol. -/
def quoteSymbol (text : String) : Option (List Char) :=
  some (inQuotes text.toList)

/-- A byte that begins no token; a NUL is not quoted at all. -/
def strayLexeme (c : Char) (line : Nat) : Lexeme :=
  if isPrintable c then ⟨.symbol (String.ofList [c]), some (inQuotes [c]), line⟩
  else if c == '\x00' then ⟨.stray 0, none, line⟩
  else ⟨.stray c.toNat, some (inQuotes ("<\\".toList ++ (toString c.toNat).toList ++ ['>'])), line⟩

/-- The token at the start of a text that begins with no white space or comment, the line on which
it ends, and the text after it. -/
def readToken (line : Nat) (cs : List Char) : Except SyntaxFault (Lexeme × List Char) :=
  match cs with
  | [] => .ok (⟨.eof, some eofText, line⟩, [])
  | c :: rest =>
    if isNameStart c then
      let word := String.ofList (cs.takeWhile isNameChar)
      let token := if reservedWords.contains word then .symbol word else .name word
      .ok (⟨token, some (inQuotes word.toList), line⟩, cs.dropWhile isNameChar)
    else if c.isDigit || (c == '.' && (rest.head?.map Char.isDigit).getD false) then
      match readNumeral line cs with
      | .error fault => .error fault
      | .ok (n, text, rest) => .ok (⟨.number n, some (inQuotes text), line⟩, rest)
    else if c == '"' || c == '\'' then
      match readString c [] line (rest.length + 1) rest with
      | .error fault => .error fault
      | .ok (content, line, rest) =>
        .ok (⟨.string (bytesOfChars content), some (inQuotes (c :: (content ++ [c]))), line⟩, rest)
    else if c == '[' && ((openLong? rest).isSome || rest.head? == some '=') then
      match openLong? rest with
      | some (level, after) =>
        match longBracket "string" level line after with
        | .error fault => .error fault
        | .ok (content, line, rest) =>
          let marks := List.replicate level '='
          let shown := ['['] ++ marks ++ ['['] ++ content ++ [']'] ++ marks ++ [']']
          .ok (⟨.string (bytesOfChars content), some (inQuotes shown), line⟩, rest)
      | none =>
        let shown := '[' :: rest.takeWhile (· == '=')
        .error ⟨line, nearText "invalid long string delimiter" (some (inQuotes shown))⟩
    else
      match longOperators.find? fun op => op.isPrefixOf cs with
      | some op =>
        let text := String.ofList op
        .ok (⟨.symbol text, quoteSymbol text, line⟩, cs.drop op.length)
      | none => .ok (strayLexeme c line, rest)

/-- Drops white space and comments. -/
def dropBlank (line : Nat) : Nat → List Char → Except SyntaxFault (Nat × List Char)
  | 0, cs => .ok (line, cs)
  | fuel + 1, cs =>
    match cs with
    | '-' :: '-' :: '[' :: rest =>
      match openLong? rest with
      | some (level, after) =>
        match longBracket "comment" level line after with
        | .error fault => .error fault
        | .ok (_, line, rest) => dropBlank line fuel rest
      | none => dropBlank line fuel (rest.dropWhile fun c => !isNewline c)
    | '-' :: '-' :: rest => dropBlank line fuel (rest.dropWhile fun c => !isNewline c)
    | c :: rest =>
      if isNewline c then dropBlank (line + 1) fuel (dropNewline (c :: rest))
      else if Number.isSpace c then dropBlank line fuel rest
      else .ok (line, c :: rest)
    | [] => .ok (line, [])

/-- Cuts a text into tokens from the given line on; `acc` holds the tokens so far, last first.
Every token takes at least one character. -/
def tokenizeFrom (acc : List Lexeme) (line : Nat) : Nat → List Char → Lexed
  | 0, _ => ⟨acc.reverse, .ok ⟨.eof, some eofText, line⟩⟩
  | fuel + 1, cs =>
    match dropBlank line (cs.length + 1) cs with
    | .error fault => ⟨acc.reverse, .error fault⟩
    | .ok (line, cs) =>
      match readToken line cs with
      | .error fault => ⟨acc.reverse, .error fault⟩
      | .ok (lexeme, rest) =>
        if lexeme.token = .eof then ⟨acc.reverse, .ok lexeme⟩
        else tokenizeFrom (lexeme :: acc) lexeme.line fuel rest

/-- Cuts a text into tokens. -/
def tokenize (cs : List Char) : Lexed :=
  tokenizeFrom [] 1 (cs.length + 1) cs

end Script
end HookPool
