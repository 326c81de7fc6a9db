/-
# Scripts in a store

The interpreter of this library carries scripts out in a store of their own.  Outside, a script sees
neither time nor chance nor files: the functions that would show them are there by name only, as are
coroutines, packing and some others, and raise an error when they are called
(`Library.unavailable`).  So all occasions are one.  Nothing that holds for any interpreter depends on
which functions there are.

A loaded script's hooks can be looked up and called, and its globals can be read and set.  All of that
may run functions of the script and so change the store.
-/
import HookPool.Script.Invocation
import HookPool.Script.Machine
import HookPool.Text.Utf8

namespace HookPool
namespace Script

/-! ## Errors as they are seen outside -/

/-- The text of a message: it ends before its first NUL, and what is no UTF-8 is replaced. -/
def shownMessage (message : ByteArray) : String :=
  Text.decodeLossy ⟨message.data.takeWhile (· != 0)⟩

/-- The most errors in a row that come of finding the text of an error. -/
def maxTextErrors : Nat := 20

/-- The text of a value that a script has raised; the value may have a handler for it. -/
def raisedText : Nat → Value → Store → String × Store
  | 0, _, s => ("error in error handling", s)
  | fuel + 1, v, s =>
    let action : Action Ending := do return .results [.string (← Action.textOf v .library)]
    match Machine.run action s with
    | .returned [.string text] s => (shownMessage text, s)
    | .returned _ s => ("", s)
    | .raised v s => raisedText fuel v s
    | .endless s => ("the script does not end", s)

def runtimeMessage (text : String) : String := "runtime error: " ++ text

def CompileFault.shown : CompileFault → String
  | .malformed message => "syntax error: " ++ Text.decodeLossy message
  | .tooDeep => runtimeMessage (shownMessage CompileFault.tooDeep.message)

/-- The first result of a call from outside, with the store after it. -/
def answer : Outcome → Except String Value × Store
  | .returned values s => (.ok (values.headD .nil), s)
  | .raised v s =>
    let (text, s) := raisedText maxTextErrors v s
    (.error (runtimeMessage text), s)
  | .endless s => (.error "the script does not end", s)

/-! ## What can be done from outside -/

/-- The position of the first NUL. -/
def nulPosition? (name : ByteArray) : Option Nat :=
  name.data.findIdx? (· == 0)

/-- Runs a text under a name in a new store. -/
def runText (source : ByteArray) (name : String) : Except String Value × Store :=
  let bytes := name.toUTF8
  match nulPosition? bytes with
  | some i =>
    (.error (runtimeMessage
      ("invalid name: nul byte found in provided data at position: " ++ toString i)),
      Library.firstStore)
  | none =>
    match compile source bytes with
    | .error fault => (.error fault.shown, Library.firstStore)
    | .ok body =>
      let main : Action Ending := do
        let globals ← Action.newVariable (.table Library.globalsPlace)
        runFunction body [globals] (ChunkName.short bytes) []
      answer (Machine.run main Library.firstStore)

/-- Does something for one value. -/
def perform (action : Action Value) (s : Store) : Except String Value × Store :=
  answer (Machine.run (do return .results [← action]) s)

/-- Takes the lines that were printed, the first one first, out of a store. -/
def takePrinted (s : Store) : List ByteArray × Store :=
  (s.printed.reverse, { s with printed := [] })

namespace Value

/-- The value as it is handed out. -/
def handed : Value → Handed Nat Value
  | .nil => .nil
  | .boolean b => .boolean b
  | .number x => .number x
  | .string s => .string s
  | .table place => .table place
  | .function place => .function (.function place)
  | .builtin b => .function (.builtin b)
  | v => .other v.typeName

/-- The type of the value as it is named outside scripts. -/
def outerTypeName (v : Value) : String := v.handed.typeName

/-- The value that is handed in. -/
def ofHanded : Handed Nat Value → Value
  | .nil | .other _ => .nil
  | .boolean b => .boolean b
  | .number x => .number x
  | .string s => .string s
  | .table place => .table place
  | .function f => f

end Value

/-- The interpreter of this library. -/
def interpreter : Interpreter Unit Store Nat Value where
  run _ source name :=
    let (result, s) := runText source name
    (result.map Value.handed, s)
  newTable s := (s.tables.size, { s with tables := s.tables.push .empty })
  get s table key :=
    let (result, s) := perform (Action.index (.table table) (.text key) none none) s
    (result.map Value.handed, s)
  call s f arguments :=
    let (result, s) := answer (Machine.call f (arguments.map Value.ofHanded) s)
    (result.map Value.handed, s)
  takePrinted := takePrinted
  takePrinted_twice _ := rfl

/-! ## Loaded scripts -/

/-- The state of a loaded script. -/
abbrev State : Type := Loaded Store Nat

/-- Loads a script under a name. -/
def load (source : ByteArray) (name : String) : LoadResult State :=
  interpreter.load () source name

/-- Loads the script, and tells what it has printed. -/
def Source.load (source : Source) : Except Error State × List ByteArray :=
  interpreter.loadSource () source

/-- What a factory makes of the script. -/
def Source.product (source : Source) : Lending.Product State :=
  interpreter.product () source

/-- The factory that loads the script afresh each time. -/
def Source.factory (source : Source) : Lending.Factory State :=
  interpreter.factory (fun _ => ()) source

/-- What comes of calling a hook. -/
def invoke (st : State) (hook : String) (arguments : List HookArg) : Lending.Invocation State :=
  interpreter.invoke st hook arguments

namespace State

/-- Looks a hook up. -/
def lookUp (st : State) (hook : String) : Except Error (Option Value) × State :=
  interpreter.lookUp st hook

/-- Looks hooks up, one after the other. -/
def lookUpAll (st : State) (hooks : List String) : List (Except Error (Option Value)) × State :=
  interpreter.lookUpAll st hooks

/-- Those of the known hooks that the script defines, in their order. -/
def definedHooks (st : State) : Except Error (List String) × State :=
  interpreter.definedHooks st

/-! ## Globals -/

def getGlobal (st : State) (name : String) : Except String Value × State :=
  let ⟨s, hooks⟩ := st
  let (result, s) := perform (Action.index (.table Library.globalsPlace) (.text name) none none) s
  (result, ⟨s, hooks⟩)

def setGlobal (st : State) (name : String) (v : Value) : Except String Unit × State :=
  let ⟨s, hooks⟩ := st
  let (result, s) := perform (do
    Action.setIndex (.table Library.globalsPlace) (.text name) v none none
    return .nil) s
  (result.map fun _ => (), ⟨s, hooks⟩)

end State
end Script
end HookPool
