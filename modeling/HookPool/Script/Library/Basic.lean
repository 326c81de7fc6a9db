/-
# Basic functions

What every script can use without naming a library: types, texts of values, tables without their
handlers, errors and their handling.
-/
import HookPool.Script.Library.Arguments

namespace HookPool
namespace Script
namespace Library

open HookPool.Script.Action

/-! ## Types and texts -/

def type (c : Invocation) : Action (List Value) := do
  return [.text (← c.any 1).typeName]

def tostring (c : Invocation) : Action (List Value) := do
  return [.string (← textOf (← c.any 1) c.site)]

/-- The whole number that digits of a base denote, wrapped to 64 bits. -/
def digitsValue? (base : Nat) (cs : List Char) : Option Int :=
  let trimmed := ((cs.dropWhile Number.isSpace).reverse.dropWhile Number.isSpace).reverse
  let (negative, digits) := Number.readSign trimmed
  let value (c : Char) : Nat :=
    if c.isDigit then c.toNat - 48 else c.toUpper.toNat - 55
  if digits.isEmpty || !digits.all fun c => c.isAlphanum && value c < base then none
  else
    let n : Int := digits.foldl (fun n c => n * base + value c) 0
    some (if negative then -n else n)

def tonumber (c : Invocation) : Action (List Value) := do
  if c.isAbsent 2 then
    match (c.argument 1).toNumber? with
    | some x => return [.number x]
    | none =>
      let _ ← c.any 1
      return [.nil]
  let base ← c.int 2
  match c.argument 1 with
  | .string s =>
    if base < 2 ∨ 36 < base then c.failArgumentText 2 "base out of range"
    match digitsValue? base.toNat (s.toList.map fun b => Char.ofNat b.toNat) with
    | some n => return [.ofInt n]
    | none => return [.nil]
  | _ => c.failType 1 "string"

/-- Prints the texts of the arguments on a line, with tabs between them. -/
def print (c : Invocation) : Action (List Value) := do
  let texts ← c.arguments.mapM fun v => textOf v c.site
  let line :=
    match texts with
    | [] => ByteArray.empty
    | first :: rest => rest.foldl (fun line t => (line.push 9) ++ t) first
  modifyStore fun s => { s with printed := line :: s.printed }
  return []

def select (c : Invocation) : Action (List Value) := do
  let rest := c.arguments.drop 1
  match c.argument 1 with
  | .string s =>
    if s[0]? = some 35 then return [.ofNat rest.length]
  | _ => pure ()
  let n ← c.int 1
  if n < 0 then
    let position := (c.count : Int) + n
    if position < 1 then c.failArgumentText 1 "index out of range"
    return c.arguments.drop position.toNat
  if n = 0 then c.failArgumentText 1 "index out of range"
  return c.arguments.drop n.toNat

/-! ## Tables -/

def getmetatable (c : Invocation) : Action (List Value) := do
  match ← handlersOf (← c.any 1) with
  | none => return [.nil]
  | some place =>
    match ← getField place "__metatable" with
    | .nil => return [.table place]
    | shown => return [shown]

def setmetatable (c : Invocation) : Action (List Value) := do
  let place ← c.table 1
  let handlers ← match c.argument? 2 with
    | some .nil => pure none
    | some (.table h) => pure (some h)
    | _ => c.failType 2 "nil or table"
  match ← handler (.table place) "metatable" with
  | .nil => pure ()
  | _ => c.fail "cannot change a protected metatable"
  modifyTable place fun t => { t with metatable := handlers }
  return [.table place]

def rawequal (c : Invocation) : Action (List Value) := do
  return [.boolean ((← c.any 1).rawEquals (← c.any 2))]

def rawlen (c : Invocation) : Action (List Value) := do
  match c.argument 1 with
  | .table place => return [.ofNat (← viewTable place Table.length)]
  | .string s => return [.ofNat s.size]
  | _ => c.failType 1 "table or string"

def rawget (c : Invocation) : Action (List Value) := do
  let place ← c.table 1
  return [← getRaw place (← c.any 2)]

def rawset (c : Invocation) : Action (List Value) := do
  let place ← c.table 1
  let key ← c.any 2
  let v ← c.any 3
  setRaw place key v none
  return [.table place]

/-- The next key of a table with its value. -/
def next (c : Invocation) : Action (List Value) := do
  let place ← c.table 1
  match ← viewTable place fun t => t.next? (c.argument 2) with
  | some (some (k, v)) => return [k, v]
  | some none => return [.nil]
  | none => failText none "invalid key to 'next'"

def pairs (c : Invocation) : Action (List Value) := do
  let v ← c.any 1
  match ← handler v "pairs" with
  | .nil => return [.builtin .next, v, .nil]
  | h =>
    let results ← call h [v] .library
    return [results.getD 0 .nil, results.getD 1 .nil, results.getD 2 .nil]

def ipairs (c : Invocation) : Action (List Value) := do
  return [.builtin .ipairsStep, ← c.any 1, .int 0]

/-- The next number with its value, as long as there is one. -/
def ipairsStep (c : Invocation) : Action (List Value) := do
  let i := Value.ofInt ((← c.int 2) + 1)
  match ← index (c.argument 1) i none none with
  | .nil => return [.nil]
  | v => return [i, v]

/-! ## Errors -/

/-- Raises a value; a text begins with the place so many calls outwards. -/
def raiseAt (v : Value) (level : Int) : Action (List Value) := do
  match v with
  | .string s =>
    if 0 < level then fail (← locate level.toNat) s
    else raise v
  | v => raise v

def error (c : Invocation) : Action (List Value) := do
  raiseAt (c.argument 1) (← c.intOr 2 1)

def assert (c : Invocation) : Action (List Value) := do
  if (← c.any 1).isTrue then return c.arguments
  raiseAt ((c.argument? 2).getD (.text "assertion failed!")) 1

/-- Calls a function and tells whether it failed. -/
def pcall (c : Invocation) : Action (List Value) := do
  match c.arguments with
  | [] => raise (.text "not enough arguments to call function")
  | f :: arguments =>
    match ← attempt (call f arguments .library) with
    | .ok results => return .boolean true :: results
    | .error v => return [.boolean false, v]

/-- The most errors in a row that a handler of errors may make of an error. -/
def maxHandling : Nat := 20

/-- What a handler of errors makes of an error; its own errors it has to handle too. -/
def handleError (h : Value) : Nat → Value → Action (List Value)
  | 0, _ => return [.text "error in error handling"]
  | fuel + 1, v => do
    match ← attempt (call h [v] .library) with
    | .ok results => return results
    | .error v => handleError h fuel v

/-- Calls a function and hands its error to a handler. -/
def xpcall (c : Invocation) : Action (List Value) := do
  match c.arguments with
  | f :: h :: arguments =>
    match ← attempt (call f arguments .library) with
    | .ok results => return .boolean true :: results
    | .error v => return [.boolean false, (← handleError h maxHandling v).headD .nil]
  | _ => raise (.text "not enough arguments to call function")

end Library
end Script
end HookPool
