/-
# Operations on values

What looking up, calculating, comparing and joining do, with the handlers that tables can have for
them.  A failing operation names the place that the offending value comes from, if the caller knows
it, and begins with the place in the script, if a script asked for the operation.
-/
import HookPool.Script.Action
import HookPool.Script.Arithmetic

namespace HookPool
namespace Script

/-- The name of an operation for handlers. -/
def Arithmetic.event : Arithmetic → String
  | .add => "add"
  | .sub => "sub"
  | .mul => "mul"
  | .mod => "mod"
  | .pow => "pow"
  | .div => "div"
  | .idiv => "idiv"
  | .band => "band"
  | .bor => "bor"
  | .bxor => "bxor"
  | .shl => "shl"
  | .shr => "shr"

def ArithmeticFault.message : ArithmeticFault → String
  | .divideByZero => "attempt to divide by zero"
  | .remainderByZero => "attempt to perform 'n%0'"
  | .notWhole => "number has no integer representation"

/-- The order of texts is that of their bytes. -/
def textLess (a b : ByteArray) : Bool :=
  a.toList < b.toList

/-- What messages add for a value that comes from a known place. -/
def labelText (label : Option Label) : ByteArray :=
  (label.map Label.text).getD ByteArray.empty

namespace Action

/-! ## Handlers -/

/-- The table of handlers of a value. -/
def handlersOf (v : Value) : Action (Option Nat) := do
  match v with
  | .table place => viewTable place Table.metatable
  | .string _ => return (← getStore).textHandlers
  | _ => return none

/-- The handler of a value for an event; `nil` if there is none. -/
def handler (v : Value) (event : String) : Action Value := do
  match ← handlersOf v with
  | some place => getField place ("__" ++ event)
  | none => return .nil

/-- The type of a value in messages; a table of handlers can give it a name. -/
def shownType (v : Value) : Action ByteArray := do
  match v with
  | .stream _ => return "FILE*".toUTF8
  | .table _ =>
    match ← handler v "name" with
    | .string name => return name
    | _ => return v.typeName.toUTF8
  | _ => return v.typeName.toUTF8

/-- Calls a handler for its first result. -/
def callHandler (h : Value) (event : String) (arguments : List Value) (place : Option Position) :
    Action Value :=
  callForOne h arguments ⟨place, some (.metamethod event)⟩

/-- Fails because a value does not allow an operation. -/
def failOperand {α : Type} (what : String) (v : Value) (label : Option Label)
    (place : Option Position) : Action α := do
  let type ← shownType v
  fail place (("attempt to " ++ what ++ " a ").toUTF8 ++ type ++ " value".toUTF8 ++ labelText label)

/-! ## Look-ups -/

/-- The most handlers that a look-up passes through. -/
def maxChain : Nat := 2000

/-- The value that an object has under a key, passing through at most so many handlers. -/
def indexFrom (key : Value) (place : Option Position) :
    Nat → Value → Option Label → Action Value
  | 0, _, _ => failText place "'__index' chain too long; possibly a loop"
  | fuel + 1, object, label => do
    let found ← match object with
      | .table t => getRaw t key
      | _ => pure .nil
    if !found.isNil then return found
    let h ← handler object "index"
    match object, h with
    | .table _, .nil => return .nil
    | _, .nil => failOperand "index" object label place
    | _, h =>
      if h.isFunction then callHandler h "index" [object, key] place
      else indexFrom key place fuel h none

/-- The value that an object has under a key. -/
def index (object key : Value) (label : Option Label) (place : Option Position) : Action Value :=
  indexFrom key place maxChain object label

/-- Puts a value under a key of a table; not every value can be a key. -/
def setRaw (t : Nat) (key v : Value) (place : Option Position) : Action Unit := do
  match key with
  | .nil => failText place "table index is nil"
  | .number (.float x) =>
    if x.isNaN then failText place "table index is NaN"
    else modifyTable t (·.set key v)
  | _ => modifyTable t (·.set key v)

/-- Puts a value under a key of an object, passing through at most so many handlers. -/
def setIndexFrom (key v : Value) (place : Option Position) :
    Nat → Value → Option Label → Action Unit
  | 0, _, _ => failText place "'__newindex' chain too long; possibly a loop"
  | fuel + 1, object, label => do
    let found ← match object with
      | .table t => getRaw t key
      | _ => pure .nil
    let h ← if found.isNil then handler object "newindex" else pure .nil
    match object, h with
    | .table t, .nil => setRaw t key v place
    | _, .nil => failOperand "index" object label place
    | _, h =>
      if h.isFunction then
        let _ ← call h [object, key, v] ⟨place, some (.metamethod "newindex")⟩
      else setIndexFrom key v place fuel h none

/-- Puts a value under a key of an object. -/
def setIndex (object key v : Value) (label : Option Label) (place : Option Position) :
    Action Unit :=
  setIndexFrom key v place maxChain object label

/-! ## Calculating -/

/-- The handler of the first of two values that has one for the event. -/
def handlerOfEither (a b : Value) (event : String) : Action Value := do
  match ← handler a event with
  | .nil => handler b event
  | h => return h

def isNumber : Value → Bool
  | .number _ => true
  | _ => false

/-- Fails for the first operand, or for the second if the first one is fine. -/
def failEither {α : Type} (what : String) (fine : Value → Bool) (a b : Value)
    (labelA labelB : Option Label) (place : Option Position) : Action α :=
  if fine a then failOperand what b labelB place else failOperand what a labelA place

/-- Fails because one of two numbers is not whole. -/
def failNotWhole {α : Type} (a : Number) (labelA labelB : Option Label) (place : Option Position) :
    Action α :=
  let label := if a.toInt?.isSome then labelB else labelA
  fail place ("number".toUTF8 ++ labelText label ++ " has no integer representation".toUTF8)

/-- An operation on two values. -/
def arithmetic (op : Arithmetic) (a b : Value) (labelA labelB : Option Label)
    (place : Option Position) : Action Value := do
  match a, b with
  | .number x, .number y =>
    match op.apply x y with
    | .ok r => return .number r
    | .error .notWhole => failNotWhole x labelA labelB place
    | .error fault => failText place fault.message
  | a, b =>
    match ← handlerOfEither a b op.event with
    | .nil =>
      let what := if op.isBitwise then "perform bitwise operation on" else "perform arithmetic on"
      failEither what isNumber a b labelA labelB place
    | h => callHandler h op.event [a, b] place

def minus (a : Value) (label : Option Label) (place : Option Position) : Action Value := do
  match a with
  | .number x => return .number x.negate
  | a =>
    match ← handler a "unm" with
    | .nil => failOperand "perform arithmetic on" a label place
    | h => callHandler h "unm" [a, a] place

/-- All bits of a whole number turned over. -/
def complement (a : Value) (label : Option Label) (place : Option Position) : Action Value := do
  match a with
  | .number x =>
    match x.toInt? with
    | some n => return .int (~~~n)
    | none => failNotWhole x label label place
  | a =>
    match ← handler a "bnot" with
    | .nil => failOperand "perform bitwise operation on" a label place
    | h => callHandler h "bnot" [a, a] place

def length (a : Value) (label : Option Label) (place : Option Position) : Action Value := do
  match a with
  | .string s => return .ofNat s.size
  | a =>
    match ← handler a "len", a with
    | .nil, .table t => return .ofNat (← viewTable t Table.length)
    | .nil, a => failOperand "get length of" a label place
    | h, a => callHandler h "len" [a, a] place

/-- Joins two texts or numbers. -/
def concat (a b : Value) (labelA labelB : Option Label) (place : Option Position) :
    Action Value := do
  match a.toText?, b.toText? with
  | some s, some t => return .string (s ++ t)
  | _, _ =>
    match ← handlerOfEither a b "concat" with
    | .nil =>
      failEither "concatenate" (fun v => v.toText?.isSome) a b labelA labelB place
    | h => callHandler h "concat" [a, b] place

/-! ## Comparing -/

/-- Equality; tables can have a handler for it. -/
def equals (a b : Value) (place : Option Position) : Action Bool := do
  if a.rawEquals b then return true
  match a, b with
  | .table _, .table _ =>
    match ← handlerOfEither a b "eq" with
    | .nil => return false
    | h => return (← callHandler h "eq" [a, b] place).isTrue
  | _, _ => return false

/-- Fails because two values cannot be compared. -/
def failOrder {α : Type} (a b : Value) (place : Option Position) : Action α := do
  let s ← shownType a
  let t ← shownType b
  if s == t then fail place ("attempt to compare two ".toUTF8 ++ s ++ " values".toUTF8)
  else fail place ("attempt to compare ".toUTF8 ++ s ++ " with ".toUTF8 ++ t)

/-- An order of numbers and texts, for which other values can have a handler. -/
def ordered (event : String) (numbers : Number → Number → Bool)
    (texts : ByteArray → ByteArray → Bool) (a b : Value) (place : Option Position) :
    Action Bool := do
  match a, b with
  | .number x, .number y => return numbers x y
  | .string s, .string t => return texts s t
  | a, b =>
    match ← handlerOfEither a b event with
    | .nil => failOrder a b place
    | h => return (← callHandler h event [a, b] place).isTrue

def less (a b : Value) (place : Option Position) : Action Bool :=
  ordered "lt" Number.lt textLess a b place

def lessOrEqual (a b : Value) (place : Option Position) : Action Bool :=
  ordered "le" Number.le (fun s t => !textLess t s) a b place

/-! ## Texts of values -/

/-- Twelve hexadecimal digits that stand for a place. -/
def placeText (n : Nat) : String :=
  let digits := Nat.toDigits 16 n
  "0x" ++ String.ofList (List.replicate (12 - digits.length) '0' ++ digits)

/-- The place of a value that is not known by its content. -/
def placeOf (v : Value) : Nat :=
  match v with
  | .table n | .function n | .stream n | .thread n => n
  | _ => 0

/-- How a value without a text of its own is shown: its type and its place. -/
def opaqueText (v : Value) (type : ByteArray) : ByteArray :=
  type ++ (": " ++ placeText (placeOf v)).toUTF8

/-- The text of a value, for a function of the library called at a site. -/
def textOf (v : Value) (site : Site) : Action ByteArray := do
  match ← handler v "tostring" with
  | .nil =>
    match v with
    | .nil => return "nil".toUTF8
    | .boolean b => return (if b then "true" else "false").toUTF8
    | .number x => return x.text.toUTF8
    | .string s => return s
    | .stream n => return ("file (" ++ placeText n ++ ")").toUTF8
    | v => return opaqueText v (← shownType v)
  | h =>
    match ← callForOne h [v] .library with
    | .string s => return s
    | .number x => return x.text.toUTF8
    | _ => failText site.position "'__tostring' must return a string"

end Action
end Script
end HookPool
