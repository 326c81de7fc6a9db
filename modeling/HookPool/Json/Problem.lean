/-
# What is wrong with a JSON text

A reader of JSON stops at the first problem, which it reports with the line and the column where
it stood.  `Problem` lists the causes, `Found` what stood where a value of another kind was
wanted, and `Place.message` the wording with the position.

A column counts the bytes since the line began, so a position is a number of bytes from the start
of the text (`Place.ofOffset`).
-/
import HookPool.Decimal.Shortest
import HookPool.Text.Quoted

namespace HookPool
namespace Json

/-- A value by its kind, as far as a message shows it. -/
inductive Found where
  | null
  | boolean (value : Bool)
  | integer (value : Int)
  | floating (value : Binary64)
  | text (value : String)
  | sequence
  | map
  deriving DecidableEq

/-- The least power of ten that a floating-point number shows without an exponent. -/
def leastPositionalPower : Int := -5

/-- The power of ten from which on a floating-point number shows an exponent. -/
def exponentFrom : Int := 16

/-- A floating-point number by its shortest digits: positional with a point for middling powers of
ten, else with an exponent that has a sign and at least two digits. -/
def floatingText (x : Binary64) : String :=
  let d := Decimal.shortest x
  let power := d.firstPower
  let sign := if x.isNegative then "-" else ""
  if d.digits = 0 || (leastPositionalPower ≤ power && power < exponentFrom) then
    sign ++ String.ofList d.positional
  else
    let digits := Decimal.digitText power.natAbs
    let padding := List.replicate (2 - digits.length) '0'
    let mark := if power < 0 then ['e', '-'] else ['e', '+']
    sign ++ String.ofList (d.mantissa ++ mark ++ padding ++ digits)

/-- How a message names a value. -/
def Found.describe : Found → String
  | .null => "null"
  | .boolean value => "boolean `" ++ (if value then "true" else "false") ++ "`"
  | .integer value => "integer `" ++ toString value ++ "`"
  | .floating value => "floating point `" ++ floatingText value ++ "`"
  | .text value => "string " ++ Text.quote value
  | .sequence => "sequence"
  | .map => "map"

/-- Why a text is not the wanted JSON value. -/
inductive Problem where
  | eofInValue
  | eofInString
  | eofInList
  | eofInObject
  | expectedColon
  | expectedListCommaOrEnd
  | expectedObjectCommaOrEnd
  | expectedIdent
  | expectedValue
  | keyMustBeString
  | invalidNumber
  | numberOutOfRange
  | invalidEscape
  | controlCharacter
  | loneSurrogate
  | unexpectedEndOfHexEscape
  | trailingComma
  | trailingCharacters
  | wrongType (found : Found) (wanted : String)
  | wrongValue (found : Found) (wanted : String)
  | duplicateField (name : String)
  deriving DecidableEq

/-- The wording of a problem. -/
def Problem.message : Problem → String
  | .eofInValue => "EOF while parsing a value"
  | .eofInString => "EOF while parsing a string"
  | .eofInList => "EOF while parsing a list"
  | .eofInObject => "EOF while parsing an object"
  | .expectedColon => "expected `:`"
  | .expectedListCommaOrEnd => "expected `,` or `]`"
  | .expectedObjectCommaOrEnd => "expected `,` or `\x7d`"
  | .expectedIdent => "expected ident"
  | .expectedValue => "expected value"
  | .keyMustBeString => "key must be a string"
  | .invalidNumber => "invalid number"
  | .numberOutOfRange => "number out of range"
  | .invalidEscape => "invalid escape"
  | .controlCharacter => "control character (\\u0000-\\u001F) found while parsing a string"
  | .loneSurrogate => "lone leading surrogate in hex escape"
  | .unexpectedEndOfHexEscape => "unexpected end of hex escape"
  | .trailingComma => "trailing comma"
  | .trailingCharacters => "trailing characters"
  | .wrongType found wanted => "invalid type: " ++ found.describe ++ ", expected " ++ wanted
  | .wrongValue found wanted => "invalid value: " ++ found.describe ++ ", expected " ++ wanted
  | .duplicateField name => "duplicate field `" ++ name ++ "`"

/-- The number of bytes of a text. -/
def byteLength (cs : List Char) : Nat :=
  cs.foldl (fun n c => n + c.utf8Size) 0

/-- A problem with the number of bytes that were left when it was found. -/
structure Failure where
  problem : Problem
  bytesLeft : Nat

/-- A problem with the line and column where it was found. -/
structure Place where
  problem : Problem
  line : Nat
  column : Nat
  deriving DecidableEq

/-- The line and the column of the place `offset` bytes into the text. -/
def positionAt (offset : Nat) (text : List Char) : Nat × Nat :=
  let (line, column, _) := text.foldl
    (fun (line, column, seen) c =>
      if offset ≤ seen then (line, column, seen)
      else if c == '\n' then (line + 1, 0, seen + 1)
      else (line, column + min c.utf8Size (offset - seen), seen + c.utf8Size))
    (1, 0, 0)
  (line, column)

/-- A failure placed in the text that it was found in. -/
def Failure.place (failure : Failure) (text : List Char) : Place :=
  let (line, column) := positionAt (byteLength text - failure.bytesLeft) text
  ⟨failure.problem, line, column⟩

/-- The wording of a problem with its position. -/
def Place.message (place : Place) : String :=
  place.problem.message ++ " at line " ++ toString place.line ++ " column " ++ toString place.column

end Json
end HookPool
