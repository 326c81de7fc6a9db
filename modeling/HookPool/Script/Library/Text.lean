/-
# The library of texts

Positions in texts are counted from one, from the end if they are negative.  A part of a text that
leaves its ends is cut down to them.
-/
import HookPool.Script.Directive
import HookPool.Script.Library.Arguments
import HookPool.Script.Pattern

namespace HookPool
namespace Script
namespace Library

open HookPool.Script.Action

/-! ## Parts -/

/-- The start of a part, counted from one. -/
def startPosition (pos : Int) (size : Nat) : Nat :=
  if 0 < pos then pos.toNat
  else if pos = 0 ∨ pos < -(size : Int) then 1
  else (size + pos + 1).toNat

/-- The end of a part, counted from one. -/
def endPosition (pos : Int) (size : Nat) : Nat :=
  if (size : Int) < pos then size
  else if 0 ≤ pos then pos.toNat
  else (size + pos + 1).toNat

def stringLen (c : Invocation) : Action (List Value) := do
  return [.ofNat (← c.text 1).size]

def stringSub (c : Invocation) : Action (List Value) := do
  let s ← c.text 1
  let start := startPosition (← c.int 2) s.size
  let stop := endPosition (← c.intOr 3 (-1)) s.size
  return [.string (s.extract (start - 1) stop)]

def stringByte (c : Invocation) : Action (List Value) := do
  let s ← c.text 1
  let first ← c.intOr 2 1
  let start := startPosition first s.size
  let stop := endPosition (← c.intOr 3 first) s.size
  return (s.extract (start - 1) stop).toList.map fun b => .ofNat b.toNat

def stringChar (c : Invocation) : Action (List Value) := do
  let bytes ← (List.range c.count).foldlM (fun (acc : ByteArray) i => do
    let n ← c.int (i + 1)
    if n < 0 ∨ 255 < n then c.failArgumentText (i + 1) "value out of range"
    return acc.push (UInt8.ofNat n.toNat)) ByteArray.empty
  return [.string bytes]

/-- The text with a function on every byte. -/
def mapBytes (f : Nat → Nat) (s : ByteArray) : ByteArray :=
  s.foldl (fun acc b => acc.push (UInt8.ofNat (f b.toNat))) ByteArray.empty

def stringLower (c : Invocation) : Action (List Value) := do
  return [.string (mapBytes Pattern.lowerByte (← c.text 1))]

def stringUpper (c : Invocation) : Action (List Value) := do
  return [.string (mapBytes Pattern.upperByte (← c.text 1))]

def stringReverse (c : Invocation) : Action (List Value) := do
  return [.string ⟨(← c.text 1).data.reverse⟩]

/-- `n` copies of a text with a separator between them. -/
def copies (s separator : ByteArray) : Nat → ByteArray → ByteArray
  | 0, acc => acc
  | n + 1, acc => copies s separator n (acc ++ separator ++ s)

/-- The most bytes that a text may have. -/
def maxTextSize : Nat := Nat.pow 2 63 - 1

def stringRep (c : Invocation) : Action (List Value) := do
  let s ← c.text 1
  let n ← c.int 2
  let separator ← c.textOr 3 ByteArray.empty
  if n ≤ 0 then return [.text ""]
  if maxTextSize / n.toNat < s.size + separator.size then c.fail "resulting string too large"
  if s.size + separator.size = 0 then return [.text ""]
  return [.string (copies s separator (n.toNat - 1) s)]

/-! ## Patterns -/

/-- Carries on with the outcome of a pattern. -/
def ofPattern {α : Type} (c : Invocation) (outcome : Except Pattern.Fault α) : Action α :=
  match outcome with
  | .ok a => pure a
  | .error fault => c.fail fault.message

/-- Looks for a pattern from a position on; `withPlace` asks for where it was found. -/
def search (c : Invocation) (withPlace : Bool) : Action (List Value) := do
  let s ← c.text 1
  let p ← c.text 2
  let start := startPosition (← c.intOr 3 1) s.size - 1
  if s.size < start then return [.nil]
  if withPlace && ((c.argument 4).isTrue || Pattern.isPlain p) then
    match Pattern.findText? s p (s.size + 1) start with
    | some i => return [.ofNat (i + 1), .ofNat (i + p.size)]
    | none => return [.nil]
  match ← ofPattern c (Pattern.find s p start) with
  | none => return [.nil]
  | some (first, stop, captures) =>
    if withPlace then
      let values ← if captures.isEmpty then pure []
        else ofPattern c (Pattern.captureValues s first stop captures)
      return .ofNat (first + 1) :: .ofNat stop :: values
    else ofPattern c (Pattern.captureValues s first stop captures)

def stringFind (c : Invocation) : Action (List Value) := search c true

def stringMatch (c : Invocation) : Action (List Value) := search c false

def stringGmatch (c : Invocation) : Action (List Value) := do
  let s ← c.text 1
  let p ← c.text 2
  let start := startPosition (← c.intOr 3 1) s.size - 1
  return [← newFunction (.finder s p (min start (s.size + 1)) none)]

/-- The next match at `i` or later that does not end where the last one did. -/
def nextMatch (s p : ByteArray) (lastEnd : Option Nat) :
    Nat → Nat → Except Pattern.Fault (Option (Nat × Nat × Array Pattern.Capture))
  | 0, _ => .ok none
  | fuel + 1, i => do
    if s.size < i then return none
    match ← Pattern.matchAt s p i with
    | some (stop, captures) =>
      if lastEnd = some stop then nextMatch s p lastEnd fuel (i + 1)
      else return some (i, stop, captures)
    | none => nextMatch s p lastEnd fuel (i + 1)

/-- Gives the next match and remembers where it ends. -/
def findNext (c : Invocation) (place : Nat) (s p : ByteArray) (start : Nat)
    (lastEnd : Option Nat) : Action (List Value) := do
  match ← ofPattern c (nextMatch s p lastEnd (s.size + 2) start) with
  | none => return [.nil]
  | some (first, stop, captures) =>
    modifyStore fun st => { st with
      functions := st.functions.setIfInBounds place (.finder s p stop (some stop)) }
    ofPattern c (Pattern.captureValues s first stop captures)

/-- The text that a template gives for a match: a percent sign and a digit stand for a capture. -/
def fillTemplate (c : Invocation) (s : ByteArray) (first stop : Nat)
    (captures : Array Pattern.Capture) : List UInt8 → ByteArray → Action ByteArray
  | [], acc => return acc
  | b :: rest, acc => do
    if b ≠ 37 then fillTemplate c s first stop captures rest (acc.push b)
    else
      let wrong : Action ByteArray := c.fail "invalid use of '%' in replacement string"
      match rest with
      | [] => wrong
      | d :: rest =>
        if d = 37 then fillTemplate c s first stop captures rest (acc.push 37)
        else if d = 48 then
          fillTemplate c s first stop captures rest (acc ++ s.extract first stop)
        else if Pattern.isDigit d.toNat then
          let n := d.toNat - 49
          let v ← match captures[n]? with
            | some capture => ofPattern c (capture.value s)
            | none =>
              if n = 0 then pure (.string (s.extract first stop))
              else c.fail ("invalid capture index %" ++ toString (n + 1) ++ " in replacement string")
          fillTemplate c s first stop captures rest (acc ++ v.toText?.getD ByteArray.empty)
        else wrong

/-- What takes the place of a match: a template, the answer of a function, or an entry of a table.
If the answer is false, the match stays. -/
def replacement (c : Invocation) (s : ByteArray) (first stop : Nat)
    (captures : Array Pattern.Capture) : Action ByteArray := do
  let checked (v : Value) : Action ByteArray := do
    if !v.isTrue then return s.extract first stop
    match v.toText? with
    | some t => return t
    | none => c.fail ("invalid replacement value (a " ++ v.typeName ++ ")")
  match c.argument 3 with
  | .table place => do
    let values ← ofPattern c (Pattern.captureValues s first stop captures)
    checked (← index (.table place) (values.headD .nil) none none)
  | f =>
    if f.isFunction then
      let values ← ofPattern c (Pattern.captureValues s first stop captures)
      checked (← callForOne f values .library)
    else
      fillTemplate c s first stop captures (f.toText?.getD ByteArray.empty).toList ByteArray.empty

/-- Replaces the matches from `i` on, at most `limit` of them; gives the text and how many there
were. -/
def replaceFrom (c : Invocation) (s p : ByteArray) (anchored : Bool) (limit : Int) :
    Nat → Nat → Option Nat → Nat → ByteArray → Action (ByteArray × Nat)
  | 0, _, _, n, acc => return (acc, n)
  | fuel + 1, i, lastEnd, n, acc => do
    if limit ≤ n then return (acc ++ s.extract i s.size, n)
    let found ← ofPattern c (Pattern.matchAt s p i)
    let found := match found with
      | some (stop, captures) => if lastEnd = some stop then none else some (stop, captures)
      | none => none
    match found with
    | some (stop, captures) =>
      let acc := acc ++ (← replacement c s i stop captures)
      if anchored then return (acc ++ s.extract stop s.size, n + 1)
      replaceFrom c s p anchored limit fuel stop (some stop) (n + 1) acc
    | none =>
      if i < s.size ∧ !anchored then
        replaceFrom c s p anchored limit fuel (i + 1) lastEnd n (acc ++ s.extract i (i + 1))
      else return (acc ++ s.extract i s.size, n)

def stringGsub (c : Invocation) : Action (List Value) := do
  let s ← c.text 1
  let p ← c.text 2
  match c.argument 3 with
  | .number _ | .string _ | .table _ | .function _ | .builtin _ => pure ()
  | _ => c.failType 3 "string/function/table"
  let limit ← c.intOr 4 (s.size + 1)
  let (anchored, p) := Pattern.splitAnchor p
  let (t, n) ← replaceFrom c s p anchored limit (2 * s.size + 4) 0 none 0 ByteArray.empty
  return [.string t, .ofNat n]

/-! ## Formats -/

/-- The bytes of characters that stand for bytes. -/
def bytesOf (cs : List Char) : ByteArray :=
  cs.foldl (fun bytes c => bytes.push (UInt8.ofNat c.toNat)) ByteArray.empty

/-- A byte of a text between quotes, before another one. -/
def quotedByte (b : Nat) (nextIsDigit : Bool) : List Char :=
  if b = 34 ∨ b = 92 ∨ b = 10 then ['\\', Char.ofNat b]
  else if Pattern.isControl b then
    let digits := Nat.toDigits 10 b
    '\\' :: (if nextIsDigit then List.replicate (3 - digits.length) '0' else []) ++ digits
  else [Char.ofNat b]

def quotedBytes : List UInt8 → List Char
  | [] => []
  | b :: rest =>
    quotedByte b.toNat ((rest.head?.map fun d => Pattern.isDigit d.toNat).getD false)
      ++ quotedBytes rest

/-- A value as scripts write it. -/
def literal (c : Invocation) (n : Nat) : Action ByteArray := do
  match c.argument n with
  | .string s => return bytesOf ('"' :: quotedBytes s.toList ++ ['"'])
  | .number (.int k) =>
    if k.toInt = Number.least then return "0x8000000000000000".toUTF8
    return (toString k.toInt).toUTF8
  | .number (.float x) =>
    if x.isNaN then return "(0/0)".toUTF8
    if x.isInfinite then return (if x.isNegative then "-1e9999" else "1e9999").toUTF8
    return bytesOf (Directive.renderFloat ⟨[], 0, none, 'a'⟩ x)
  | .nil => return "nil".toUTF8
  | .boolean b => return (if b then "true" else "false").toUTF8
  | _ => c.failArgumentText n "value has no literal form"

/-- Fails because of a directive that cannot be used. -/
def failDirective {α : Type} (c : Invocation) (middle : List Char) (letter : Char) : Action α :=
  Action.fail c.site.position
    ("invalid conversion '%".toUTF8 ++ bytesOf ((middle ++ [letter]).takeWhile (· ≠ '\x00'))
      ++ "' to 'format'".toUTF8)

/-- The directive, if the letter allows its flags and its precision. -/
def directive (c : Invocation) (middle : List Char) (letter : Char) (flags : String)
    (allowsPrecision : Bool) : Action Directive :=
  match Directive.read? middle letter flags.toList allowsPrecision with
  | some d => pure d
  | none => failDirective c middle letter

/-- The longest text that is padded without a precision. -/
def maxPadded : Nat := 99

/-- What a directive writes for an argument. -/
def formatted (c : Invocation) (n : Nat) (middle : List Char) (letter : Char) :
    Action ByteArray := do
  let whole (flags : String) : Action ByteArray := do
    let k ← c.int n
    return bytesOf ((← directive c middle letter flags true).renderInt (Int64.ofInt k))
  match letter with
  | 'c' =>
    let d ← directive c middle letter "-" false
    let k ← c.int n
    return bytesOf (d.pad [] [Char.ofNat (Int64.ofInt k).toUInt64.toUInt8.toNat] false)
  | 'd' | 'i' => whole "-+0 "
  | 'u' => whole "-0"
  | 'o' | 'x' | 'X' => whole "-#0"
  | 'a' | 'A' =>
    let d ← directive c middle letter "-+#0 " true
    return bytesOf (d.renderFloat (← c.number n).toFloat)
  | 'f' | 'e' | 'E' | 'g' | 'G' =>
    let x ← c.number n
    return bytesOf ((← directive c middle letter "-+#0 " true).renderFloat x.toFloat)
  | 'p' =>
    let d ← directive c middle letter "-" false
    let body := match c.argument n with
      | .nil | .boolean _ | .number _ => "(null)"
      | v => placeText (placeOf v)
    return bytesOf (d.pad [] body.toList false)
  | 'q' =>
    if !middle.isEmpty then c.fail "specifier '%q' cannot have modifiers"
    literal c n
  | 's' =>
    let s ← textOf (c.argument n) c.site
    if middle.isEmpty then return s
    if s.toList.contains 0 then c.failArgumentText n "string contains zeros"
    let d ← directive c middle letter "-" true
    if !middle.contains '.' ∧ maxPadded < s.size then return s
    let s := match d.precision with
      | some p => s.extract 0 p
      | none => s
    return bytesOf (d.pad [] (s.toList.map fun b => Char.ofNat b.toNat) false)
  | _ => failDirective c middle letter

/-- Writes a format with the arguments from the `n`-th on. -/
def formatFrom (c : Invocation) : Nat → Nat → List Char → ByteArray → Action ByteArray
  | 0, _, _, acc => return acc
  | _, _, [], acc => return acc
  | fuel + 1, n, '%' :: rest, acc => do
    match rest with
    | '%' :: rest => formatFrom c fuel n rest (acc.push 37)
    | rest =>
      if c.count < n then c.failArgumentText n "no value"
      match Directive.split? rest with
      | none => c.fail "invalid format string to 'format'"
      | some (middle, letter, rest) =>
        formatFrom c fuel (n + 1) rest (acc ++ (← formatted c n middle letter))
  | fuel + 1, n, x :: rest, acc => formatFrom c fuel n rest (acc.push (UInt8.ofNat x.toNat))

def stringFormat (c : Invocation) : Action (List Value) := do
  let format := (← c.text 1).toList.map fun b => Char.ofNat b.toNat
  return [.string (← formatFrom c (format.length + 1) 2 format ByteArray.empty)]

/-! ## Arithmetic on texts of numbers -/

/-- The operation of an event. -/
def operationOf? (event : String) : Option Arithmetic :=
  [Arithmetic.add, .sub, .mul, .mod, .pow, .div, .idiv].find? fun op => op.event == event

/-- The events that texts have a handler for. -/
def textEvents : List String :=
  ["add", "sub", "mul", "mod", "pow", "div", "idiv", "unm"]

/-- Carries out an operation on the numbers that two operands denote; if they denote none, the
second operand may have a handler. -/
def stringArithmetic (event : String) (c : Invocation) : Action (List Value) := do
  let a := c.argument 1
  let b := c.argument 2
  match a.toNumber?, b.toNumber? with
  | some x, some y =>
    match operationOf? event with
    | some op => return [← arithmetic op (.number x) (.number y) none none none]
    | none => return [← minus (.number x) none none]
  | _, _ =>
    let h ← match b with
      | .string _ => pure .nil
      | b => handler b event
    match h with
    | .nil =>
      c.fail ("attempt to " ++ event ++ " a '" ++ a.typeName ++ "' with a '" ++ b.typeName ++ "'")
    | h => return [← callForOne h [a, b] .library]

/-! ## Code points -/

/-- The end of the code point at a position, if it is a well-formed one; `lax` allows all numbers
below `2 ^ 31`. -/
def codePointEnd? (lax : Bool) (s : ByteArray) (i : Nat) : Option Nat :=
  let first := Pattern.byteAt s i
  let size :=
    if first < 0x80 then 1 else if first < 0xC0 then 0 else if first < 0xE0 then 2
    else if first < 0xF0 then 3 else if first < 0xF8 then 4 else if first < 0xFC then 5
    else if first < 0xFE then 6 else 0
  let tail := (List.range (size - 1)).map fun k => Pattern.byteAt s (i + 1 + k)
  if size = 0 ∨ !tail.all fun b => 0x80 ≤ b && b < 0xC0 then none
  else
    let lead := if size = 1 then first else first % Nat.pow 2 (7 - size)
    let n := tail.foldl (fun n b => n * 64 + b % 64) lead
    let least := [0, 0, 0x80, 0x800, 0x10000, 0x200000, 0x4000000].getD size 0
    if n < least then none
    else if !lax ∧ (0x10FFFF < n ∨ (0xD800 ≤ n ∧ n ≤ 0xDFFF)) then none
    else some (i + size)

/-- Counts the code points that begin at `i` up to `last`; if one is not well-formed, its
position. -/
def countCodePoints (lax : Bool) (s : ByteArray) (last : Int) :
    Nat → Nat → Nat → Except Nat Nat
  | 0, _, n => .ok n
  | fuel + 1, i, n =>
    if last < i then .ok n
    else
      match codePointEnd? lax s i with
      | some next => countCodePoints lax s last fuel next (n + 1)
      | none => .error i

def utf8Len (c : Invocation) : Action (List Value) := do
  let s ← c.text 1
  let size : Int := s.size
  let relative (n : Int) : Int := if 0 ≤ n then n else if n < -size then 0 else size + n + 1
  let first := relative (← c.intOr 2 1)
  let last := relative (← c.intOr 3 (-1))
  if first < 1 ∨ size + 1 < first then c.failArgumentText 2 "initial position out of bounds"
  if size < last then c.failArgumentText 3 "final position out of bounds"
  let lax := (c.argument 4).isTrue
  match countCodePoints lax s (last - 1) (s.size + 1) (first - 1).toNat 0 with
  | .ok n => return [.ofNat n]
  | .error i => return [.nil, .ofNat (i + 1)]

end Library
end Script
end HookPool
