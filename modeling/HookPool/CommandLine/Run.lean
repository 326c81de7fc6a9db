/-
# Carrying out command lines

What a command line comes to: an exit code, the lines on the standard output and what stands on the
standard error.  All of it is known without doing anything but reading files, except for the time
that the calls of a stress run have taken.
-/
import HookPool.CommandLine.Check
import HookPool.CommandLine.Help
import HookPool.CommandLine.Parser
import HookPool.CommandLine.Stress
import HookPool.Dispatcher

namespace HookPool
namespace CommandLine

open Lending

/-- What is left to tell when a command is over. -/
inductive Ending where
  | lines (lines : List String)
  /-- The calls of a stress run, and an error to end with. -/
  | calls (result : Stress.Result) (error : Option String)
  | error (message : String)
  /-- The program comes to grief. -/
  | panic (payload : String)
  /-- The command line is refused. -/
  | refused (fault : Fault)
  /-- There was nothing on the command line. -/
  | silent

/-- What a command line comes to. -/
structure Completion where
  /-- What scripts have printed, one line after the other. -/
  printed : List ByteArray := []
  /-- The events that are worth telling. -/
  events : List Event := []
  ending : Ending

/-- What is to be seen of a program that has ended. -/
structure Output where
  code : Nat
  printed : List ByteArray
  lines : List String
  /-- What stands on the standard error after the events. -/
  errors : String

/-- What the standard error shows of an error. -/
def errorLine (message : String) : String := "Error: " ++ message ++ "\n"

/-- What is to be seen of a command line, if its calls have taken a time. -/
def Completion.output (c : Completion) (elapsed : String) : Output :=
  match c.ending with
  | .lines lines => ⟨0, c.printed, lines, ""⟩
  | .calls result none => ⟨0, c.printed, result.summary elapsed, ""⟩
  | .calls result (some message) =>
    ⟨1, c.printed, result.summary elapsed, errorLine message⟩
  | .error message => ⟨1, c.printed, [], errorLine message⟩
  | .panic payload => ⟨101, c.printed, [], "panicked: " ++ payload ++ "\n"⟩
  | .refused fault => ⟨2, c.printed, [], "error: " ++ fault.message ++ "\n"⟩
  | .silent => ⟨2, c.printed, [], "\n".intercalate (helpLines .top) ++ "\n"⟩

/-- The events of a run that are worth telling: the grave ones, or nearly all. -/
def worthTelling (verbose : Bool) (events : List Event) : List Event :=
  let least : Level := if verbose then .debug else .warn
  events.filter fun e => least.rank ≤ e.level.rank

/-! ## The commands

Scripts are carried out by an interpreter, each one on the occasion that has come when it is loaded. -/

variable {ω σ τ φ : Type} (ip : Script.Interpreter ω σ τ φ) (occasions : Nat → ω)

/-- Checks a script. -/
def check (files : Files) (script : String) (given : Given) : Completion :=
  match Check.source files script given.name with
  | .error e => { ending := .error e.withHint }
  | .ok source =>
    match Check.hooksOf ip (occasions 0) source with
    | (.error e, printed) => { printed, ending := .error e.withHint }
    | (.ok hooks, printed) => { printed, ending := .lines (Check.summary source.name hooks) }

/-- A run of calls that is over, with the state that it has left. -/
def completion (state : Lending.State σ) (given : Given) (ending : Ending) :
    Completion where
  printed := state.printed.reverse
  events := worthTelling given.verbose state.events.reverse
  ending := ending

/-- Calls a hook over and over. -/
def stress (files : Files) (script : String) (given : Given) : Completion :=
  let prepared : Except Error (Script.Source × Plan) := do
    let source ← Script.Source.ofFile files script
    let plan ← Stress.planOf files given
    return (source, plan)
  match prepared with
  | .error e => { ending := .error e.withHint }
  | .ok (source, plan) =>
    match Dispatcher.establish ip.invoke (ip.factory occasions source) plan with
    | (.made manager, state) =>
      let ended := Stress.drive ip.invoke state manager given
      completion ended.state given (.calls ended.result ended.error?)
    | (.failed e, state) => completion state given (.error e.withHint)
    | (.panicked payload, state) => completion state given (.panic payload)
    | (_, state) => completion state given (.lines [])

/-- Carries a command line out. -/
def runOn (files : Files) (lookup : String → Option ByteArray) (words : List String) :
    Completion :=
  match read lookup words with
  | .ok (.check script given) => check ip occasions files script given
  | .ok (.stress script given) => stress ip occasions files script given
  | .error (.fault fault) => { ending := .refused fault }
  | .error .version => { ending := .lines [versionLine] }
  | .error (.help scope) => { ending := .lines (helpLines scope) }
  | .error .silent => { ending := .silent }

/-- Carries a command line out on the interpreter of this library. -/
def run (files : Files) (lookup : String → Option ByteArray) (words : List String) : Completion :=
  runOn Script.interpreter (fun _ => ()) files lookup words

end CommandLine
end HookPool
