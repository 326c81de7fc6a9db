/-
# Values of scripts

Texts are rows of bytes.  Tables, functions written in a script, streams and coroutines are known
by their place in the store and are equal only to themselves; a function of the library is known by
its name.
-/
import HookPool.Script.Number
import HookPool.Text.Utf8

namespace HookPool
namespace Script

/-- A function of the library that scripts can call. -/
inductive Builtin where
  | assert | error | getmetatable | ipairs | ipairsStep | load | next | pairs | pcall | print
  | rawequal | rawget | rawlen | rawset | select | setmetatable | tonumber | tostring | type
  | xpcall
  | stringByte | stringChar | stringFind | stringFormat | stringGmatch | stringGsub | stringLen
  | stringLower | stringMatch | stringRep | stringReverse | stringSub | stringUpper
  /-- An operation on two operands of which one is a text. -/
  | stringArithmetic (event : String)
  | tableConcat | tableInsert | tablePack | tableRemove | tableSort | tableUnpack
  | mathAbs | mathCeil | mathFloor | mathFmod | mathMax | mathMin | mathTointeger | mathType
  | utf8Len
  | coroutineCreate | coroutineYield
  /-- A function that is there by name, but does nothing here. -/
  | unavailable (name : String)
  deriving DecidableEq, Repr

/-- A value. -/
inductive Value where
  | nil
  | boolean (b : Bool)
  | number (x : Number)
  | string (s : ByteArray)
  | table (place : Nat)
  | function (place : Nat)
  | builtin (b : Builtin)
  | stream (place : Nat)
  | thread (place : Nat)
  deriving DecidableEq

namespace Value

instance : Inhabited Value := ⟨.nil⟩

/-- Equal values have equal hashes; library functions share one. -/
protected def hash : Value → UInt64
  | .nil => 1
  | .boolean b => mixHash 2 (Hashable.hash b)
  | .number (.int n) => mixHash 3 (Hashable.hash n.toUInt64)
  | .number (.float x) => mixHash 4 (Hashable.hash x.bits)
  | .string s => mixHash 5 (Hashable.hash s)
  | .table n => mixHash 6 (Hashable.hash n)
  | .function n => mixHash 7 (Hashable.hash n)
  | .builtin _ => 8
  | .stream n => mixHash 9 (Hashable.hash n)
  | .thread n => mixHash 10 (Hashable.hash n)

instance : Hashable Value := ⟨Value.hash⟩

def int (n : Int64) : Value := .number (.int n)

def ofNat (n : Nat) : Value := .int (Int64.ofNat n)

/-- A whole number, wrapped to 64 bits. -/
def ofInt (n : Int) : Value := .int (Int64.ofInt n)

def float (x : Binary64) : Value := .number (.float x)

/-- The text of the characters of a `String`. -/
def text (s : String) : Value := .string s.toUTF8

/-- Only `nil` and `false` are not true. -/
def isTrue : Value → Bool
  | .nil => false
  | .boolean b => b
  | _ => true

def isNil : Value → Bool
  | .nil => true
  | _ => false

/-- The type of the value as scripts know it. -/
def typeName : Value → String
  | .nil => "nil"
  | .boolean _ => "boolean"
  | .number _ => "number"
  | .string _ => "string"
  | .table _ => "table"
  | .function _ => "function"
  | .builtin _ => "function"
  | .stream _ => "userdata"
  | .thread _ => "thread"

def isFunction : Value → Bool
  | .function _ => true
  | .builtin _ => true
  | _ => false

/-- Equality of values without any handler: numbers are compared by what they denote. -/
def rawEquals : Value → Value → Bool
  | .number a, .number b => a.equals b
  | a, b => a == b

/-- The number that the value is, or that its text denotes. -/
def toNumber? : Value → Option Number
  | .number x => some x
  | .string s => Number.ofChars? (s.toList.map fun b => Char.ofNat b.toNat)
  | _ => none

/-- The text of a text or of a number. -/
def toText? : Value → Option ByteArray
  | .string s => some s
  | .number x => some x.text.toUTF8
  | _ => none

/-- The value as a key: a floating-point number that is whole counts as the whole number. -/
def key : Value → Value
  | .number x =>
    match x.toInt? with
    | some n => .int n
    | none => .number x
  | v => v

end Value
end Script
end HookPool
