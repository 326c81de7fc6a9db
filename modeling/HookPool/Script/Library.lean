/-
# The library

Which function does what, and the store that a new script finds: the table of globals, which comes
first, with the libraries in it, and the handlers of texts.
-/
import HookPool.Script.Chunk
import HookPool.Script.Library.Arithmetic
import HookPool.Script.Library.Basic
import HookPool.Script.Library.Sequence
import HookPool.Script.Library.Text

namespace HookPool
namespace Script
namespace Library

open HookPool.Script.Action

/-- The place of the table of globals. -/
def globalsPlace : Nat := 0

/-! ## Loading -/

/-- Joins the pieces that a function gives until it gives nothing. -/
def readPieces (f : Value) (acc : ByteArray) :
    Action (ByteArray ⊕ Except Value ByteArray) := do
  match ← attempt (callForOne f [] .library) with
  | .error v => return .inr (.error v)
  | .ok .nil => return .inr (.ok acc)
  | .ok v =>
    match v.toText? with
    | none => return .inr (.error (.text "reader function must return a string"))
    | some piece => if piece.size = 0 then return .inr (.ok acc) else return .inl (acc ++ piece)

/-- Compiles a text into a function that sees a value as its globals. -/
def loadText (source name mode : ByteArray) (globals : Value) : Action (List Value) := do
  let kind := if isCompiled source then "binary" else "text"
  let letter := if isCompiled source then 98 else 116
  if !mode.toList.contains letter then
    return [.nil, .string (("attempt to load a " ++ kind ++ " chunk (mode is '").toUTF8 ++ mode
      ++ "')".toUTF8)]
  match compile source name with
  | .error fault => return [.nil, .string fault.message]
  | .ok body =>
    let cell ← newVariable globals
    return [← newFunction (.script body [cell] (ChunkName.short name))]

/-- Compiles a text, or what a function gives piece by piece. -/
def load (c : Invocation) : Action (List Value) := do
  let mode ← c.textOr 3 "bt".toUTF8
  let globals := (c.argument? 4).getD (.table globalsPlace)
  match (c.argument 1).toText? with
  | some source => loadText source (← c.textOr 2 source) mode globals
  | none =>
    let name ← c.textOr 2 "=(load)".toUTF8
    let f ← c.function 1
    match ← loop (readPieces f) ByteArray.empty with
    | .error v => return [.nil, v]
    | .ok source => loadText source name mode globals

/-! ## Coroutines -/

def coroutineCreate (c : Invocation) : Action (List Value) := do
  let _ ← c.function 1
  return [.thread (← newObject)]

def coroutineYield (_ : Invocation) : Action (List Value) :=
  failText none "attempt to yield from outside a coroutine"

/-! ## All functions -/

/-- What a function of the library does. -/
def run (b : Builtin) (c : Invocation) : Action (List Value) :=
  match b with
  | .assert => assert c
  | .error => error c
  | .getmetatable => getmetatable c
  | .ipairs => ipairs c
  | .ipairsStep => ipairsStep c
  | .load => load c
  | .next => next c
  | .pairs => pairs c
  | .pcall => pcall c
  | .print => print c
  | .rawequal => rawequal c
  | .rawget => rawget c
  | .rawlen => rawlen c
  | .rawset => rawset c
  | .select => select c
  | .setmetatable => setmetatable c
  | .tonumber => tonumber c
  | .tostring => tostring c
  | .type => type c
  | .xpcall => xpcall c
  | .stringByte => stringByte c
  | .stringChar => stringChar c
  | .stringFind => stringFind c
  | .stringFormat => stringFormat c
  | .stringGmatch => stringGmatch c
  | .stringGsub => stringGsub c
  | .stringLen => stringLen c
  | .stringLower => stringLower c
  | .stringMatch => stringMatch c
  | .stringRep => stringRep c
  | .stringReverse => stringReverse c
  | .stringSub => stringSub c
  | .stringUpper => stringUpper c
  | .stringArithmetic event => stringArithmetic event c
  | .tableConcat => tableConcat c
  | .tableInsert => tableInsert c
  | .tablePack => tablePack c
  | .tableRemove => tableRemove c
  | .tableSort => tableSort c
  | .tableUnpack => tableUnpack c
  | .mathAbs => mathAbs c
  | .mathCeil => mathCeil c
  | .mathFloor => mathFloor c
  | .mathFmod => mathFmod c
  | .mathMax => mathMax c
  | .mathMin => mathMin c
  | .mathTointeger => mathTointeger c
  | .mathType => mathType c
  | .utf8Len => utf8Len c
  | .coroutineCreate => coroutineCreate c
  | .coroutineYield => coroutineYield c
  | .unavailable name => c.fail (name ++ " is not available")

/-! ## The first store -/

/-- A function under its own name. -/
def entry (b : Builtin) : String × Value :=
  ((b.name.splitOn ".").getLastD b.name, .builtin b)

/-- Functions of a library that are there by name only. -/
def unavailable (library : String) (names : List String) : List (String × Value) :=
  names.map fun name => (name, .builtin (.unavailable (library ++ name)))

def basicEntries : List (String × Value) :=
  [Builtin.assert, .error, .getmetatable, .ipairs, .load, .next, .pairs, .pcall, .print, .rawequal,
    .rawget, .rawlen, .rawset, .select, .setmetatable, .tonumber, .tostring, .type, .xpcall].map entry
    ++ unavailable "" ["collectgarbage", "dofile", "loadfile", "require", "warn"]

def stringEntries : List (String × Value) :=
  [Builtin.stringByte, .stringChar, .stringFind, .stringFormat, .stringGmatch, .stringGsub,
    .stringLen, .stringLower, .stringMatch, .stringRep, .stringReverse, .stringSub,
    .stringUpper].map entry
    ++ unavailable "string." ["dump", "pack", "packsize", "unpack"]

def tableEntries : List (String × Value) :=
  [Builtin.tableConcat, .tableInsert, .tablePack, .tableRemove, .tableSort, .tableUnpack].map entry
    ++ unavailable "table." ["move"]

/-- The ratio of a circle's circumference to its diameter. -/
def pi : Binary64 := ⟨0x400921FB54442D18⟩

def mathEntries : List (String × Value) :=
  [Builtin.mathAbs, .mathCeil, .mathFloor, .mathFmod, .mathMax, .mathMin, .mathTointeger,
    .mathType].map entry
    ++ [("huge", .float (Binary64.infinity false)), ("pi", .float pi),
      ("maxinteger", .ofInt Number.greatest), ("mininteger", .ofInt Number.least)]
    ++ unavailable "math." ["acos", "asin", "atan", "cos", "deg", "exp", "log", "modf", "rad",
      "random", "randomseed", "sin", "sqrt", "tan", "ult"]

def utf8Entries : List (String × Value) :=
  [entry .utf8Len, ("charpattern", .string ⟨#[91, 0, 45, 127, 194, 45, 253, 93, 91, 128, 45, 191,
    93, 42]⟩)] ++ unavailable "utf8." ["char", "codepoint", "codes", "offset"]

def coroutineEntries : List (String × Value) :=
  [Builtin.coroutineCreate, .coroutineYield].map entry
    ++ unavailable "coroutine." ["close", "isyieldable", "resume", "running", "status", "wrap"]

def ioEntries : List (String × Value) :=
  [("stdin", .stream 0), ("stdout", .stream 1), ("stderr", .stream 2)]
    ++ unavailable "io." ["close", "flush", "input", "lines", "open", "output", "popen", "read",
      "tmpfile", "type", "write"]

def osEntries : List (String × Value) :=
  unavailable "os." ["clock", "date", "difftime", "execute", "exit", "getenv", "remove", "rename",
    "setlocale", "time", "tmpname"]

/-- The libraries that are tables of their own. -/
def libraries : List (String × List (String × Value)) :=
  [("string", stringEntries), ("table", tableEntries), ("math", mathEntries),
    ("utf8", utf8Entries), ("coroutine", coroutineEntries), ("io", ioEntries), ("os", osEntries)]

/-- A table of entries under names. -/
def tableOf (entries : List (String × Value)) : Table :=
  entries.foldl (fun t (name, v) => t.set (.text name) v) (.sized 0 entries.length)

/-- Adds a table of entries to a store; its place comes with it. -/
def addTable (s : Store) (entries : List (String × Value)) : Nat × Store :=
  (s.tables.size, { s with tables := s.tables.push (tableOf entries) })

/-- Adds the libraries to a store, with their names and places. -/
def addLibraries (s : Store) : List (String × List (String × Value)) → List (String × Value) × Store
  | [] => ([], s)
  | (name, entries) :: rest =>
    let (place, s) := addTable s entries
    let (added, s) := addLibraries s rest
    ((name, .table place) :: added, s)

/-- The place of the handlers of texts: they follow the libraries. -/
def textHandlersPlace : Nat := libraries.length + 1

/-- The place of the library of texts. -/
def stringPlace : Nat := 1

/-- The store of a new script. -/
def firstStore : Store :=
  let start : Store := { Store.empty with tables := #[.empty], objects := 3 }
  let (added, s) := addLibraries start libraries
  let handlers := ("__index", .table stringPlace)
    :: textEvents.map fun event => ("__" ++ event, .builtin (.stringArithmetic event))
  let (_, s) := addTable s handlers
  let globals := basicEntries ++ added
    ++ [("_G", .table globalsPlace), ("_VERSION", .text "Lua 5.4")]
  { s with
    tables := s.tables.setIfInBounds globalsPlace (tableOf globals)
    textHandlers := some textHandlersPlace }

end Library
end Script
end HookPool
