/-
# Quoted texts

The form in which diagnostics show a text: between double quotes, with `\0`, `\t`, `\r`, `\n`,
`\"` and `\\` for six characters and `\u` with the code point in lower-case hexadecimal digits,
between braces, for every other character that is not plain.  A list of bytes is shown in decimal
between square brackets.
-/
import HookPool.Text.Printable

namespace HookPool
namespace Text

/-- The digits of `n` in base sixteen, lower case, without leading zeros. -/
def hexDigits (n : Nat) : List Char :=
  Nat.toDigits 16 n

/-- One character as it stands between double quotes. -/
def quoteChar (c : Char) : List Char :=
  if c == '\x00' then ['\\', '0']
  else if c == '\t' then ['\\', 't']
  else if c == '\r' then ['\\', 'r']
  else if c == '\n' then ['\\', 'n']
  else if c == '"' then ['\\', '"']
  else if c == '\\' then ['\\', '\\']
  else if isPlain c then [c]
  else ['\\', 'u', '\x7b'] ++ hexDigits c.toNat ++ ['\x7d']

/-- The text between double quotes. -/
def quote (text : String) : String :=
  String.ofList ('"' :: (text.toList.flatMap quoteChar ++ ['"']))

/-- The bytes in decimal, between square brackets. -/
def showBytes (bytes : List UInt8) : String :=
  "[" ++ ", ".intercalate (bytes.map fun b => toString b.toNat) ++ "]"

end Text
end HookPool
