/-
# Interpreters of scripts

What scripts do is up to an interpreter.  Nothing is known of it but what it can be asked for: to
run a script in a new store, to look into a table of a store, and to call a function.  Each of these
may run what is written in a script, and so change the store, print lines and raise an error.

What a script does may depend on more than its text, such as the time, chance and files.  All that is
in the occasion on which it is run; later lookups and calls have it from the store.
-/
import HookPool.Error
import HookPool.Hook
import HookPool.Script.Number

namespace HookPool
namespace Script

/-- A value that an interpreter hands out or is handed.  Tables and functions cannot be seen into. -/
inductive Handed (τ φ : Type) where
  | nil
  | boolean (b : Bool)
  | number (x : Number)
  | string (s : ByteArray)
  | table (t : τ)
  | function (f : φ)
  /-- Any other value, of which there is only the name of its type. -/
  | other (type : String)

/-- What comes of asking for a value: the value, or the text of an error. -/
abbrev Answer (τ φ : Type) : Type := Except String (Handed τ φ)

/-- An interpreter with its occasions, stores, tables and functions. -/
structure Interpreter (ω σ τ φ : Type) where
  /-- Runs a script under a name in a new store, for its first result. -/
  run : ω → ByteArray → String → Answer τ φ × σ
  /-- Makes a table with nothing in it. -/
  newTable : σ → τ × σ
  /-- What a table has under a text; what handles lookups in the table is run. -/
  get : σ → τ → String → Answer τ φ × σ
  /-- Calls a function, for its first result. -/
  call : σ → φ → List (Handed τ φ) → Answer τ φ × σ
  /-- The lines that were printed since they were last taken, the first one first. -/
  takePrinted : σ → List ByteArray × σ
  takePrinted_twice : ∀ s, takePrinted (takePrinted s).2 = ([], (takePrinted s).2)

/-- A loaded script: a store, and the table of hooks in it. -/
structure Loaded (σ τ : Type) where
  store : σ
  hooks : τ

/-- What comes of loading a script: its state or a fault, with the lines that were printed. -/
structure LoadResult (α : Type) where
  printed : List ByteArray
  state : Except ScriptFault α

variable {ω σ τ φ : Type}

/-! ## Values from outside -/

namespace Handed

/-- The type of a value as errors name it: whole numbers have one of their own. -/
def typeName : Handed τ φ → String
  | .nil => "nil"
  | .boolean _ => "boolean"
  | .number (.int _) => "integer"
  | .number (.float _) => "number"
  | .string _ => "string"
  | .table _ => "table"
  | .function _ => "function"
  | .other type => type

/-- An argument of a hook as a value. -/
def ofArgument : HookArg → Handed τ φ
  | .text s => .string s.toUTF8
  | .integer n => .number (.int n)
  | .bytes b => .string ⟨b.toArray⟩

/-- The whole number that a floating-point number denotes, as the nearest one of 64 bits. -/
def saturated (n : Int) : Int64 :=
  if n < Number.least then Int64.ofInt Number.least
  else if Number.greatest < n then Int64.ofInt Number.greatest
  else Int64.ofInt n

/-- The reply that a value stands for: a whole number is a status, a text is data. -/
def reply (v : Handed τ φ) : Except HookFault HookReply :=
  match v with
  | .number (.int n) => .ok (.status n)
  | .number (.float x) =>
    match x.toInt? with
    | some n => .ok (.status (saturated n))
    | none => .error (.badReply v.typeName)
  | .string s => .ok (.data s.toList)
  | v => .error (.badReply v.typeName)

end Handed

namespace Answer

/-- The function that a table has for a hook, or nothing if it has nothing. -/
def function? : Answer τ φ → Except HookFault (Option φ)
  | .error message => .error (.raised message)
  | .ok .nil => .ok none
  | .ok (.function f) => .ok (some f)
  | .ok v => .error (.notAFunction v.typeName)

/-- The reply of a hook that was called. -/
def reply : Answer τ φ → Except HookFault HookReply
  | .error message => .error (.raised message)
  | .ok v => v.reply

end Answer

namespace Interpreter

variable (ip : Interpreter ω σ τ φ)

/-! ## Loading -/

/-- The table of hooks that a script has given; one that gives nothing has an empty table. -/
def tableOf (given : Answer τ φ) (s : σ) : Except ScriptFault τ × σ :=
  match given with
  | .error message => (.error (.raised message), s)
  | .ok (.table hooks) => (.ok hooks, s)
  | .ok .nil =>
    let (hooks, s) := ip.newTable s
    (.ok hooks, s)
  | .ok v => (.error (.notATable v.typeName), s)

/-- Loads a script under a name. -/
def load (occasion : ω) (payload : ByteArray) (name : String) : LoadResult (Loaded σ τ) :=
  let (given, s) := ip.run occasion payload name
  let (hooks, s) := ip.tableOf given s
  let (printed, s) := ip.takePrinted s
  ⟨printed, hooks.map (Loaded.mk s)⟩

/-! ## Looking hooks up -/

/-- What a script has for a hook: a function, nothing, or what is wrong with it. -/
def entry (c : Loaded σ τ) (hook : String) : Except HookFault (Option φ) :=
  (ip.get c.store c.hooks hook).1.function?

/-- Looks a hook up. -/
def lookUp (c : Loaded σ τ) (hook : String) : Except Error (Option φ) × Loaded σ τ :=
  let ⟨s, hooks⟩ := c
  let (found, s) := ip.get s hooks hook
  (found.function?.mapError (Error.hook hook), ⟨s, hooks⟩)

/-- Looks hooks up, one after the other. -/
def lookUpAll (c : Loaded σ τ) : List String → List (Except Error (Option φ)) × Loaded σ τ
  | [] => ([], c)
  | hook :: hooks =>
    let (found, c) := ip.lookUp c hook
    let (others, c) := lookUpAll c hooks
    (found :: others, c)

/-- Those of some hooks that the script defines, or the error of the first one that cannot be looked
up; with the script after that. -/
def definedAmong (c : Loaded σ τ) : List String → Except Error (List String) × Loaded σ τ
  | [] => (.ok [], c)
  | hook :: hooks =>
    match ip.lookUp c hook with
    | (.error e, c) => (.error e, c)
    | (.ok none, c) => definedAmong c hooks
    | (.ok (some _), c) =>
      let (others, c) := definedAmong c hooks
      (others.map (hook :: ·), c)

/-- Those of the known hooks that the script defines, in their order. -/
def definedHooks (c : Loaded σ τ) : Except Error (List String) × Loaded σ τ :=
  ip.definedAmong c knownHooks

/-! ## Calling hooks -/

/-- Calls a function as a method of the table of hooks. -/
def callAsMethod (c : Loaded σ τ) (f : φ) (arguments : List HookArg) : Answer τ φ × Loaded σ τ :=
  let ⟨s, hooks⟩ := c
  let (returned, s) := ip.call s f (.table hooks :: arguments.map .ofArgument)
  (returned, ⟨s, hooks⟩)

/-- Looks a hook up and calls it, if the script defines it. -/
def reply? (c : Loaded σ τ) (hook : String) (arguments : List HookArg) :
    Option (Except Error HookReply) × Loaded σ τ :=
  match ip.lookUp c hook with
  | (.error e, c) => (some (.error e), c)
  | (.ok none, c) => (none, c)
  | (.ok (some f), c) =>
    let (returned, c) := ip.callAsMethod c f arguments
    (some (returned.reply.mapError (Error.hook hook)), c)

/-- The lines that were printed since they were last taken. -/
def takeLines (c : Loaded σ τ) : List ByteArray × Loaded σ τ :=
  let ⟨s, hooks⟩ := c
  let (printed, s) := ip.takePrinted s
  (printed, ⟨s, hooks⟩)

end Interpreter
end Script
end HookPool
