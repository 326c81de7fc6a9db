/-
# Reading command lines

A command line is read from left to right.  A setting without an attached value, and the script,
only count when the next option, script or the end is reached; what cannot be understood is reported
before what was read but has not counted yet.  Words that begin with a hyphen are options, and never
the values of other options, except for a single hyphen; after `--` all words are scripts.

When all words are read, the environment gives the sizes that are still missing.
-/
import HookPool.CommandLine.Options
import HookPool.Text.Utf8

namespace HookPool
namespace CommandLine

/-- What was read last and has not counted yet. -/
inductive Pending where
  | nothing
  | setting (setting : Setting) (value : Option String)
  | script (path : String)
  deriving DecidableEq, Repr

/-- How far the words of a command are read. -/
structure Progress where
  given : Given := {}
  pending : Pending := .nothing
  /-- There was a script. -/
  scriptSeen : Bool := false
  deriving DecidableEq, Repr

namespace Progress

/-- Counts what was read last. -/
def settle (p : Progress) : Except Stop Progress :=
  let counted : Except Fault Given :=
    match p.pending with
    | .nothing => .ok p.given
    | .setting s none => .error (.valueRequired s.shown)
    | .setting s (some value) => p.given.putOnce s value
    | .script path => p.given.putScript path
  match counted with
  | .error fault => .error (.fault fault)
  | .ok given => .ok { p with given, pending := .nothing }

/-- Reads a flag. -/
def flag (p : Progress) (scope : Scope) (f : Flag) : Except Stop Progress := do
  let p ← p.settle
  let given ← p.given.raise scope f
  return { p with given }

/-- Reads a setting; an attached value counts at once. -/
def setting (p : Progress) (s : Setting) : Option String → Except Stop Progress
  | none => do
    let p ← p.settle
    return { p with pending := .setting s none }
  | some value => do
    let p ← p.settle
    match p.given.putOnce s value with
    | .ok given => return { p with given }
    | .error fault => throw (.fault fault)

/-- Reads the script, of which there may only be one. -/
def script (p : Progress) (path : String) : Except Stop Progress :=
  if p.scriptSeen then .error (.fault (.unexpectedArgument path))
  else do
    let p ← p.settle
    return { p with pending := .script path, scriptSeen := true }

/-- Reads a word without a hyphen in front: a value that is still missing, or the script. -/
def word (p : Progress) (value : String) : Except Stop Progress :=
  match p.pending with
  | .setting s none => .ok { p with pending := .setting s (some value) }
  | _ => p.script value

/-- Reads a long option: the characters after the two hyphens. -/
def long (p : Progress) (scope : Scope) (cs : List Char) : Except Stop Progress :=
  let name := String.ofList (cs.takeWhile (· ≠ '='))
  let value : Option String :=
    match cs.dropWhile (· ≠ '=') with
    | [] => none
    | _ :: rest => some (String.ofList rest)
  match longOption? scope name, value with
  | none, _ => .error (.fault (.unexpectedArgument ("--" ++ name)))
  | some (.flag f), none => p.flag scope f
  | some (.flag f), some v => .error (.fault (.unexpectedValue v f))
  | some (.setting s), v => p.setting s v

/-- The value that is attached to a letter. -/
def attached? : List Char → Option String
  | [] => none
  | '=' :: rest => some (String.ofList rest)
  | rest => some (String.ofList rest)

/-- Reads letters after a hyphen, of which the last one may be a setting. -/
def short (scope : Scope) : Progress → List Char → Except Stop Progress
  | p, [] => .ok p
  | p, c :: cs =>
    match shortOption? scope c with
    | none => .error (.fault (.unexpectedArgument (String.ofList ['-', c])))
    | some (.setting s) => p.setting s (attached? cs)
    | some (.flag f) =>
      match p.flag scope f with
      | .error stop => .error stop
      | .ok p => short scope p cs

/-- Reads the words after `--`. -/
def scripts (p : Progress) : List String → Except Stop Progress
  | [] => .ok p
  | w :: words => do (← p.script w).scripts words

/-- Reads the words of a command. -/
def words (scope : Scope) : Progress → List String → Except Stop Progress
  | p, [] => .ok p
  | p, w :: rest =>
    match w.toList with
    | ['-', '-'] => p.scripts rest
    | '-' :: '-' :: cs => do words scope (← p.long scope cs) rest
    | '-' :: c :: cs => do words scope (← short scope p (c :: cs)) rest
    | _ => do words scope (← p.word w) rest

end Progress

/-! ## Sizes from the environment -/

/-- The setting that a variable stands for. -/
def sizeVariables : List (Setting × String) :=
  [(.startCount, Environment.startCountVariable), (.maxActive, Environment.maxActiveVariable),
    (.maxIdle, Environment.maxIdleVariable)]

/-- Takes the settings that are still missing from their variables. -/
def fromVariables (lookup : String → Option ByteArray) :
    Given → List (Setting × String) → Except Fault Given
  | g, [] => .ok g
  | g, (setting, name) :: rest =>
    match if g.has setting then none else lookup name with
    | none => fromVariables lookup g rest
    | some bytes =>
      match Text.decode? bytes with
      | none => .error .invalidText
      | some value => do fromVariables lookup (← g.put setting value) rest

/-! ## Commands -/

/-- What a command line asks for. -/
inductive Command where
  | check (script : String) (given : Given)
  | stress (script : String) (given : Given)
  deriving DecidableEq, Repr

/-- What the words of a command and the environment give. -/
def readGiven (scope : Scope) (lookup : String → Option ByteArray) (words : List String) :
    Except Stop (String × Given) := do
  let p ← (Progress.words scope {} words)
  let p ← p.settle
  let given ←
    if scope = .stress then (fromVariables lookup p.given sizeVariables).mapError .fault
    else pure p.given
  match given.script with
  | none => throw (.fault .scriptRequired)
  | some script => return (script, given)

/-- The place of a command. -/
def commandScope? (word : String) : Option Scope :=
  if word = "check" then some .check else if word = "stress" then some .stress else none

/-- The word that asks for help. -/
def helpWord : String := "help"

/-- Reads the words after the word that asks for help. -/
def readHelp : List String → Stop
  | [] => .help .top
  | [word] =>
    if word = helpWord then .help .top
    else
      match commandScope? word with
      | some scope => .help scope
      | none => .fault (.unrecognizedCommand word)
  | word :: next :: _ =>
    if word = helpWord ∨ (commandScope? word).isSome then .fault (.unrecognizedCommand next)
    else .fault (.unrecognizedCommand word)

/-- Reads the words after `--`, in front of which there was no command. -/
def readAfterDashes (p : Progress) : List String → Stop
  | [] => if p.given.verbose then .fault .commandRequired else .silent
  | word :: _ =>
    if word = helpWord ∨ (commandScope? word).isSome then .fault (.unexpectedArgument word)
    else .fault (.unrecognizedCommand word)

/-- Reads the words up to the command. -/
def readTop (lookup : String → Option ByteArray) : Progress → List String → Except Stop Command
  | p, [] => .error (readAfterDashes p [])
  | p, w :: rest =>
    match w.toList with
    | ['-', '-'] => .error (readAfterDashes p rest)
    | '-' :: '-' :: cs => do readTop lookup (← p.long .top cs) rest
    | '-' :: c :: cs => do readTop lookup (← Progress.short .top p (c :: cs)) rest
    | _ =>
      let verbosely (g : Given) : Given := { g with verbose := g.verbose || p.given.verbose }
      match commandScope? w with
      | some .check => do
        let (script, given) ← readGiven .check lookup rest
        return .check script (verbosely given)
      | some .stress => do
        let (script, given) ← readGiven .stress lookup rest
        return .stress script (verbosely given)
      | _ =>
        .error (if w = helpWord then readHelp rest else .fault (.unrecognizedCommand w))

/-- What a command line asks for, or why it is not carried out. -/
def read (lookup : String → Option ByteArray) (words : List String) : Except Stop Command :=
  readTop lookup {} words

end CommandLine
end HookPool
