/-
# Carrying out calls

The machine runs one action at a time.  When it asks for a call, the action waits on a stack and the
called function runs; its results, or the value that it raises, go to the action on top.  A call in
place of a function leaves nothing waiting.

There may only be so many waiting actions, and far fewer that wait for a call which the library or
an operation makes.
-/
import HookPool.Script.Evaluate
import HookPool.Script.Library

namespace HookPool
namespace Script

/-- An action that waits for a call. -/
structure Waiting where
  /-- Where it called. -/
  site : Site
  resume : Except Value (List Value) → Store → Run Ending

/-- The call is not one that a script writes. -/
def Site.isNested (site : Site) : Bool :=
  match site.position, site.callee with
  | none, _ => true
  | _, some ⟨.metamethod, _⟩ => true
  | _, some ⟨.forIterator, _⟩ => true
  | _, _ => false

/-- What comes of a call from outside. -/
inductive Outcome where
  | returned (values : List Value) (s : Store)
  | raised (v : Value) (s : Store)
  /-- It would take more steps than there are. -/
  | endless (s : Store)

namespace Machine

/-- The most actions that may wait. -/
def maxWaiting : Nat := 200000

/-- The most actions that may wait for a call which is not written in a script. -/
def maxNested : Nat := 198

/-- The most handlers of calls between a value and a function. -/
def maxHandlers : Nat := 100

open HookPool.Script.Action

/-- Begins a call: runs the function, or what handles calls of the value. -/
def enter (site : Site) : Nat → Value → List Value → Action Ending
  | 0, callee, _ => failOperand "call" callee site.callee site.position
  | fuel + 1, callee, arguments => do
    match callee with
    | .function place =>
      match (← getStore).functions.getD place default with
      | .script body inScope chunk => runFunction body inScope chunk arguments
      | .finder s p start lastEnd =>
        return .results (← Library.findNext ⟨site, "?", arguments⟩ place s p start lastEnd)
    | .builtin b => return .results (← Library.run b ⟨site, b.name, arguments⟩)
    | callee =>
      match ← handler callee "call" with
      | .nil => failOperand "call" callee site.callee site.position
      | h => enter site fuel h (callee :: arguments)

/-- The message that a call cannot be made because too many actions wait. -/
def overflow (site : Site) (message : String) : Value :=
  .string ((site.position.map Position.text).getD ByteArray.empty ++ message.toUTF8)

/-- Why a call cannot be made, if it cannot. -/
def overflow? (waiting nested : Nat) (site : Site) : Option Value :=
  if maxWaiting ≤ waiting then some (overflow site "stack overflow")
  else if site.isNested && maxNested ≤ nested then some (overflow site "C stack overflow")
  else none

/-- How many of the waiting actions wait for a call that is not written in a script, after one more
or one less of them. -/
def nestedAfter (nested : Nat) (site : Site) : Nat :=
  if site.isNested then nested + 1 else nested

/-- Runs actions until none waits; `depth` and `nested` count those that wait. -/
def drive : Nat → Nat → Nat → List Waiting → Run Ending → Outcome
  | 0, _, _, _, run => .endless run.store
  | fuel + 1, depth, nested, waiting, run =>
    match run with
    | .done (.results values) s =>
      match waiting with
      | [] => .returned values s
      | top :: rest =>
        let nested := if top.site.isNested then nested - 1 else nested
        drive fuel (depth - 1) nested rest (top.resume (.ok values) s)
    | .done (.tailCall place arguments) s =>
      drive fuel depth nested waiting
        (enter .library maxHandlers (.function place) arguments s)
    | .raised v s =>
      match waiting with
      | [] => .raised v s
      | top :: rest =>
        let nested := if top.site.isNested then nested - 1 else nested
        drive fuel (depth - 1) nested rest (top.resume (.error v) s)
    | .call callee arguments site s resume =>
      match overflow? depth nested site with
      | some v => drive fuel depth nested waiting (resume (.error v) s)
      | none =>
        drive fuel (depth + 1) (nestedAfter nested site) (⟨site, resume⟩ :: waiting)
          (enter site maxHandlers callee arguments s)
    | .locate level _ resume =>
      let place := (waiting[level - 1]?).bind fun w => w.site.position
      drive fuel depth nested waiting (resume place)
    | .endless s => .endless s

/-- The most steps of a run; no computer lives to see the end of one that takes so many. -/
def maxSteps : Nat := Nat.pow 2 62

/-- Runs an action from outside. -/
def run (action : Action Ending) (s : Store) : Outcome :=
  drive maxSteps 0 0 [] (action s)

/-- Calls a value from outside. -/
def call (callee : Value) (arguments : List Value) (s : Store) : Outcome :=
  run (enter .library maxHandlers callee arguments) s

end Machine
end Script
end HookPool
