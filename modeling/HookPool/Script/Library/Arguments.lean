/-
# Arguments of library functions

A function of the library looks at its arguments by number and fails with their number and its own
name if they do not fit.  The name is the one that the caller uses; a method does not count the
object as an argument.
-/
import HookPool.Script.Operation

namespace HookPool
namespace Script

/-- The name of a library function with the library it is in. -/
def Builtin.name : Builtin → String
  | .assert => "assert"
  | .error => "error"
  | .getmetatable => "getmetatable"
  | .ipairs => "ipairs"
  | .ipairsStep => "?"
  | .load => "load"
  | .next => "next"
  | .pairs => "pairs"
  | .pcall => "pcall"
  | .print => "print"
  | .rawequal => "rawequal"
  | .rawget => "rawget"
  | .rawlen => "rawlen"
  | .rawset => "rawset"
  | .select => "select"
  | .setmetatable => "setmetatable"
  | .tonumber => "tonumber"
  | .tostring => "tostring"
  | .type => "type"
  | .xpcall => "xpcall"
  | .stringByte => "string.byte"
  | .stringChar => "string.char"
  | .stringFind => "string.find"
  | .stringFormat => "string.format"
  | .stringGmatch => "string.gmatch"
  | .stringGsub => "string.gsub"
  | .stringLen => "string.len"
  | .stringLower => "string.lower"
  | .stringMatch => "string.match"
  | .stringRep => "string.rep"
  | .stringReverse => "string.reverse"
  | .stringSub => "string.sub"
  | .stringUpper => "string.upper"
  | .stringArithmetic _ => "?"
  | .tableConcat => "table.concat"
  | .tableInsert => "table.insert"
  | .tablePack => "table.pack"
  | .tableRemove => "table.remove"
  | .tableSort => "table.sort"
  | .tableUnpack => "table.unpack"
  | .mathAbs => "math.abs"
  | .mathCeil => "math.ceil"
  | .mathFloor => "math.floor"
  | .mathFmod => "math.fmod"
  | .mathMax => "math.max"
  | .mathMin => "math.min"
  | .mathTointeger => "math.tointeger"
  | .mathType => "math.type"
  | .utf8Len => "utf8.len"
  | .coroutineCreate => "coroutine.create"
  | .coroutineYield => "coroutine.yield"
  | .unavailable name => name

/-- A call of a library function. -/
structure Invocation where
  site : Site
  /-- The name of the function for callers that have none for it. -/
  name : String
  arguments : List Value

namespace Invocation

/-- How many arguments there are. -/
def count (c : Invocation) : Nat := c.arguments.length

/-- An argument, counted from one, if it is there. -/
def argument? (c : Invocation) (n : Nat) : Option Value := c.arguments[n - 1]?

/-- An argument, `nil` if it is not there. -/
def argument (c : Invocation) (n : Nat) : Value := (c.argument? n).getD .nil

def fail {α : Type} (c : Invocation) (message : String) : Action α :=
  Action.failText c.site.position message

/-- Fails because of an argument. -/
def failArgument {α : Type} (c : Invocation) (n : Nat) (message : ByteArray) : Action α :=
  let wrong (n : Nat) (name : ByteArray) : Action α :=
    Action.fail c.site.position (("bad argument #" ++ toString n ++ " to '").toUTF8 ++ name
      ++ "' (".toUTF8 ++ message ++ ")".toUTF8)
  match c.site.callee with
  | some ⟨.method, name⟩ =>
    if n = 1 then
      Action.fail c.site.position ("calling '".toUTF8 ++ name ++ "' on bad self (".toUTF8
        ++ message ++ ")".toUTF8)
    else wrong (n - 1) name
  | some ⟨_, name⟩ => wrong n name
  | none => wrong n c.name.toUTF8

def failArgumentText {α : Type} (c : Invocation) (n : Nat) (message : String) : Action α :=
  c.failArgument n message.toUTF8

/-- Fails because an argument has the wrong type. -/
def failType {α : Type} (c : Invocation) (n : Nat) (expected : String) : Action α := do
  let found ← match c.argument? n with
    | none => pure "no value".toUTF8
    | some v => Action.shownType v
  c.failArgument n ((expected ++ " expected, got ").toUTF8 ++ found)

/-- An argument of any type. -/
def any (c : Invocation) (n : Nat) : Action Value := do
  match c.argument? n with
  | some v => return v
  | none => c.failArgumentText n "value expected"

/-- An argument that is a table; its place. -/
def table (c : Invocation) (n : Nat) : Action Nat := do
  match c.argument n with
  | .table place => return place
  | _ => c.failType n "table"

/-- An argument that is a function. -/
def function (c : Invocation) (n : Nat) : Action Value := do
  if (c.argument n).isFunction then return c.argument n
  c.failType n "function"

/-- An argument that is a number or a text of one. -/
def number (c : Invocation) (n : Nat) : Action Number := do
  match (c.argument n).toNumber? with
  | some x => return x
  | none => c.failType n "number"

/-- An argument that is a whole number, in any of its forms. -/
def int (c : Invocation) (n : Nat) : Action Int := do
  let x ← c.number n
  match x.toInt? with
  | some k => return k.toInt
  | none => c.failArgumentText n "number has no integer representation"

/-- The argument is missing or `nil`. -/
def isAbsent (c : Invocation) (n : Nat) : Bool := (c.argument n).isNil

def intOr (c : Invocation) (n : Nat) (default : Int) : Action Int :=
  if c.isAbsent n then pure default else c.int n

/-- An argument that is a text or a number. -/
def text (c : Invocation) (n : Nat) : Action ByteArray := do
  match (c.argument n).toText? with
  | some s => return s
  | none => c.failType n "string"

def textOr (c : Invocation) (n : Nat) (default : ByteArray) : Action ByteArray :=
  if c.isAbsent n then pure default else c.text n

end Invocation

end Script
end HookPool
