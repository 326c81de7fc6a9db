/-
# Patterns

A pattern is a row of items, each of which matches one byte and may be repeated, with captures,
balanced brackets, frontiers and anchors among them.  Where more than one match is possible, a
greedy item tries the longest first and a lazy one the shortest.

Each step of the matcher goes on behind the item it has matched, so the length of the pattern bounds
the recursion.
-/
import HookPool.Script.Value

namespace HookPool
namespace Script
namespace Pattern

/-- Why a pattern cannot be used. -/
inductive Fault where
  | endsWithEscape
  | unclosedSet
  | missingBalance
  | missingFrontierSet
  | badCaptureIndex (index : Int)
  | noOpenCapture
  | unfinishedCapture
  | tooManyCaptures
  | tooComplex
  deriving DecidableEq

def Fault.message : Fault → String
  | .endsWithEscape => "malformed pattern (ends with '%')"
  | .unclosedSet => "malformed pattern (missing ']')"
  | .missingBalance => "malformed pattern (missing arguments to '%b')"
  | .missingFrontierSet => "missing '[' after '%f' in pattern"
  | .badCaptureIndex n => "invalid capture index %" ++ toString n
  | .noOpenCapture => "invalid pattern capture"
  | .unfinishedCapture => "unfinished capture"
  | .tooManyCaptures => "too many captures"
  | .tooComplex => "pattern too complex"

/-- How a capture ends. -/
inductive CaptureEnd where
  | unfinished
  /-- It stands for its position. -/
  | position
  | closed (stop : Nat)
  deriving DecidableEq

/-- A part of the subject that a pattern has caught. -/
structure Capture where
  start : Nat
  stop : CaptureEnd
  deriving DecidableEq

/-- The most captures of a pattern. -/
def maxCaptures : Nat := 32

/-- The most choices that may be open at a time. -/
def maxChoices : Nat := 200

/-- The byte at a position as a number; zero behind the end. -/
def byteAt (s : ByteArray) (i : Nat) : Nat :=
  (s[i]?.getD 0).toNat

/-! ## Classes of bytes -/

def isLower (c : Nat) : Bool := 97 ≤ c && c ≤ 122
def isUpper (c : Nat) : Bool := 65 ≤ c && c ≤ 90
def isDigit (c : Nat) : Bool := 48 ≤ c && c ≤ 57
def isAlpha (c : Nat) : Bool := isLower c || isUpper c
def isAlnum (c : Nat) : Bool := isAlpha c || isDigit c
def isControl (c : Nat) : Bool := c < 32 || c == 127
def isGraph (c : Nat) : Bool := 33 ≤ c && c ≤ 126
def isSpace (c : Nat) : Bool := c == 32 || (9 ≤ c && c ≤ 13)
def isHexDigit (c : Nat) : Bool := isDigit c || (97 ≤ c && c ≤ 102) || (65 ≤ c && c ≤ 70)

def lowerByte (c : Nat) : Nat := if isUpper c then c + 32 else c
def upperByte (c : Nat) : Nat := if isLower c then c - 32 else c

/-- The class that a letter names. -/
def classOf? (letter : Char) : Option (Nat → Bool) :=
  match letter with
  | 'a' => some isAlpha
  | 'c' => some isControl
  | 'd' => some isDigit
  | 'g' => some isGraph
  | 'l' => some isLower
  | 'p' => some fun c => isGraph c && !isAlnum c
  | 's' => some isSpace
  | 'u' => some isUpper
  | 'w' => some isAlnum
  | 'x' => some isHexDigit
  | 'z' => some (· == 0)
  | _ => none

/-- The bytes that an escaped byte stands for: a capital letter stands for what is not in its class,
and what names no class for itself. -/
def escapedTest (e c : Nat) : Bool :=
  match classOf? (Char.ofNat (lowerByte e)) with
  | some test => if isUpper e then !test c else test c
  | none => c == e

/-- The bytes that the part of a set from a position to its end stands for. -/
def setTest (p : ByteArray) (stop : Nat) : Nat → Nat → Nat → Bool
  | 0, _, _ => false
  | fuel + 1, j, c =>
    if stop ≤ j then false
    else if byteAt p j = 37 then
      escapedTest (byteAt p (j + 1)) c || setTest p stop fuel (j + 2) c
    else if byteAt p (j + 1) = 45 ∧ j + 2 < stop then
      (byteAt p j ≤ c && c ≤ byteAt p (j + 2)) || setTest p stop fuel (j + 3) c
    else c == byteAt p j || setTest p stop fuel (j + 1) c

/-- The position of the bracket that closes a set; the first byte of the set is never taken for
one. -/
def setEnd (p : ByteArray) : Nat → Nat → Except Fault Nat
  | 0, _ => .error .unclosedSet
  | fuel + 1, j =>
    if p.size ≤ j then .error .unclosedSet
    else
      let next := if byteAt p j = 37 ∧ j + 1 < p.size then j + 2 else j + 1
      if byteAt p next = 93 ∧ next < p.size then .ok next else setEnd p fuel next

/-- Something that matches one byte, with the position behind it. -/
structure Item where
  test : Nat → Bool
  next : Nat

/-- The set that begins at a position with its bracket. -/
def setAt (p : ByteArray) (j : Nat) : Except Fault Item := do
  let negated := byteAt p (j + 1) = 94
  let first := if negated then j + 2 else j + 1
  let stop ← setEnd p (p.size + 1) first
  let test := setTest p stop (p.size + 1) first
  return ⟨if negated then fun c => !test c else test, stop + 1⟩

/-- The item at a position. -/
def itemAt (p : ByteArray) (j : Nat) : Except Fault Item :=
  match Char.ofNat (byteAt p j) with
  | '%' =>
    if p.size ≤ j + 1 then .error .endsWithEscape
    else .ok ⟨escapedTest (byteAt p (j + 1)), j + 2⟩
  | '[' => setAt p j
  | '.' => .ok ⟨fun _ => true, j + 1⟩
  | _ => .ok ⟨(· == byteAt p j), j + 1⟩

/-! ## Matching -/

/-- The item matches the byte at a position of the subject. -/
def Item.matchesAt (item : Item) (s : ByteArray) (i : Nat) : Bool :=
  i < s.size && item.test (byteAt s i)

/-- How often the item matches from a position on. -/
def Item.count (item : Item) (s : ByteArray) : Nat → Nat → Nat
  | 0, _ => 0
  | fuel + 1, i => if item.matchesAt s i then item.count s fuel (i + 1) + 1 else 0

/-- The position behind the bracket that closes the one before `i`. -/
def balanceEnd? (s : ByteArray) (opening closing : Nat) : Nat → Nat → Nat → Option Nat
  | 0, _, _ => none
  | fuel + 1, depth, i =>
    if s.size ≤ i then none
    else if byteAt s i = closing then
      if depth = 1 then some (i + 1) else balanceEnd? s opening closing fuel (depth - 1) (i + 1)
    else if byteAt s i = opening then balanceEnd? s opening closing fuel (depth + 1) (i + 1)
    else balanceEnd? s opening closing fuel depth (i + 1)

/-- The last capture that is unfinished gets its end. -/
def closeCapture (captures : Array Capture) (stop : Nat) : Except Fault (Array Capture) :=
  match (List.range captures.size).reverse.find? fun k =>
    captures[k]?.map Capture.stop == some .unfinished with
  | some k => .ok (captures.modify k fun c => { c with stop := .closed stop })
  | none => .error .noOpenCapture

/-- The part of the subject that a digit of the pattern refers back to. -/
def backReference (captures : Array Capture) (digit : Nat) : Except Fault (Nat × Nat) :=
  let index : Int := (digit : Int) - 49
  let fault := Except.error (.badCaptureIndex (index + 1))
  if index < 0 then fault
  else
    match captures[index.toNat]? with
    | some ⟨start, .closed stop⟩ => .ok (start, stop)
    | some ⟨start, .position⟩ => .ok (start, start)
    | _ => fault

/-- The end of a match, with what was caught. -/
abbrev Found := Option (Nat × Array Capture)

/-- Tries repetitions of an item from `n` down to none. -/
def greedy (rest : Nat → Except Fault Found) (i : Nat) : Nat → Except Fault Found
  | 0 => rest i
  | n + 1 => do
    match ← rest (i + (n + 1)) with
    | some found => return some found
    | none => greedy rest i n

/-- Tries repetitions of an item, none first. -/
def lazily (rest : Nat → Except Fault Found) (item : Item) (s : ByteArray) :
    Nat → Nat → Except Fault Found
  | 0, _ => .ok none
  | fuel + 1, i => do
    match ← rest i with
    | some found => return some found
    | none =>
      if item.matchesAt s i then lazily rest item s fuel (i + 1) else return none

/-- Matches the subject from `i` on with the pattern from `j` on; so many more choices may be
open. -/
def matchFrom (s p : ByteArray) :
    Nat → Nat → Nat → Nat → Array Capture → Except Fault Found
  | 0, _, _, _, _ => .error .tooComplex
  | fuel + 1, choices, i, j, captures =>
    -- Another choice is open while the rest is tried.
    let deeper (i j : Nat) (captures : Array Capture) : Except Fault Found :=
      match choices with
      | 0 => .error .tooComplex
      | choices + 1 => matchFrom s p fuel choices i j captures
    let items (_ : Unit) : Except Fault Found := do
      let item ← itemAt p j
      let suffix := if item.next < p.size then Char.ofNat (byteAt p item.next) else '\x00'
      let rest (i : Nat) := deeper i (item.next + 1) captures
      match suffix with
      | '?' =>
        if item.matchesAt s i then
          match ← rest (i + 1) with
          | some found => return some found
          | none => matchFrom s p fuel choices i (item.next + 1) captures
        else matchFrom s p fuel choices i (item.next + 1) captures
      | '+' =>
        if item.matchesAt s i then greedy rest (i + 1) (item.count s s.size (i + 1))
        else return none
      | '*' => greedy rest i (item.count s s.size i)
      | '-' => lazily rest item s (s.size + 1) i
      | _ =>
        if item.matchesAt s i then matchFrom s p fuel choices (i + 1) item.next captures
        else return none
    if p.size ≤ j then .ok (some (i, captures))
    else
      match Char.ofNat (byteAt p j) with
      | '(' =>
        if maxCaptures ≤ captures.size then .error .tooManyCaptures
        else if byteAt p (j + 1) = 41 then
          deeper i (j + 2) (captures.push ⟨i, .position⟩)
        else deeper i (j + 1) (captures.push ⟨i, .unfinished⟩)
      | ')' => do deeper i (j + 1) (← closeCapture captures i)
      | '$' =>
        if j + 1 = p.size then .ok (if i = s.size then some (i, captures) else none)
        else items ()
      | '%' =>
        match Char.ofNat (byteAt p (j + 1)) with
        | 'b' =>
          if p.size ≤ j + 3 then .error .missingBalance
          else if i < s.size ∧ byteAt s i = byteAt p (j + 2) then
            match balanceEnd? s (byteAt p (j + 2)) (byteAt p (j + 3)) s.size 1 (i + 1) with
            | some stop => matchFrom s p fuel choices stop (j + 4) captures
            | none => .ok none
          else .ok none
        | 'f' => do
          if byteAt p (j + 2) ≠ 91 then .error .missingFrontierSet
          else
            let item ← setAt p (j + 2)
            let before := if i = 0 then 0 else byteAt s (i - 1)
            if !item.test before && item.test (byteAt s i) then
              matchFrom s p fuel choices i item.next captures
            else return none
        | c =>
          if c.isDigit then do
            let (start, stop) ← backReference captures c.toNat
            let length := stop - start
            if i + length ≤ s.size ∧ s.extract i (i + length) = s.extract start stop then
              matchFrom s p fuel choices (i + length) (j + 2) captures
            else return none
          else items ()
      | _ => items ()

/-- The end of the match that begins at a position of the subject, with what was caught. -/
def matchAt (s p : ByteArray) (i : Nat) : Except Fault Found :=
  matchFrom s p (p.size + 1) maxChoices i 0 #[]

/-- The value of a capture. -/
def Capture.value (s : ByteArray) (c : Capture) : Except Fault Value :=
  match c.stop with
  | .closed stop => .ok (.string (s.extract c.start stop))
  | .position => .ok (.ofNat (c.start + 1))
  | .unfinished => .error .unfinishedCapture

/-- The values of the captures; of the whole match if there are none. -/
def captureValues (s : ByteArray) (start stop : Nat) (captures : Array Capture) :
    Except Fault (List Value) :=
  if captures.isEmpty then .ok [.string (s.extract start stop)]
  else captures.toList.mapM (Capture.value s)

/-- The first match that begins at `i` or later. -/
def firstMatch (s p : ByteArray) : Nat → Nat → Except Fault (Option (Nat × Nat × Array Capture))
  | 0, _ => .ok none
  | fuel + 1, i => do
    match ← matchAt s p i with
    | some (stop, captures) => return some (i, stop, captures)
    | none => if i < s.size then firstMatch s p fuel (i + 1) else return none

/-- The pattern without an anchor, and whether it had one. -/
def splitAnchor (p : ByteArray) : Bool × ByteArray :=
  if 0 < p.size ∧ byteAt p 0 = 94 then (true, p.extract 1 p.size) else (false, p)

/-- Looks for a match from `i` on; an anchored pattern has to match there. -/
def find (s p : ByteArray) (i : Nat) : Except Fault (Option (Nat × Nat × Array Capture)) := do
  match splitAnchor p with
  | (true, p) => return (← matchAt s p i).map fun (stop, captures) => (i, stop, captures)
  | (false, p) => firstMatch s p (s.size + 1) i

/-- The pattern stands for itself. -/
def isPlain (p : ByteArray) : Bool :=
  p.toList.all fun b => !("^$*+?.([%-".toList.contains (Char.ofNat b.toNat))

/-- The first place from `i` on where a text stands in another one. -/
def findText? (s t : ByteArray) : Nat → Nat → Option Nat
  | 0, _ => none
  | fuel + 1, i =>
    if s.size < i + t.size then none
    else if s.extract i (i + t.size) = t then some i
    else findText? s t fuel (i + 1)

end Pattern
end Script
end HookPool
