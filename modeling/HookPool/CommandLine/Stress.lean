/-
# Calling a hook over and over

A number of threads call the same hook of a script, each of them the same number of times, through
one manager; the replies are counted by kind.  Then the manager is shut down, and calls that have
failed are an error.

Sizes come from a file or are the usual ones, and those that the command line or the environment
give are put on top; only then are they checked.
-/
import HookPool.CommandLine.Crowd
import HookPool.CommandLine.Options
import HookPool.Config.File

namespace HookPool
namespace CommandLine

open Lending

/-- An argument is an integer of 64 bits if it reads as one, and else a text. -/
def parseArgument (raw : String) : HookArg :=
  match Text.readSigned (Nat.pow 2 63) (Nat.pow 2 63 - 1) raw.toList with
  | .ok n => .integer (Int64.ofInt n)
  | .error _ => .text raw

/-- The sizes that a file, if one is named, and the sizes on top of it give. -/
def resolve (files : Files) (file : Option String) (sizes : Sizes) : Except Error PoolConfig := do
  let config ← match file with
    | some path => PoolConfig.ofFile files path
    | none => pure PoolConfig.default
  let config := config.override sizes
  match config.fault? with
  | some fault => throw (.invalidConfig fault)
  | none => return config

namespace Stress

/-- The number of threads if none is given. -/
def usualThreads : Nat := 4

/-- The number of calls of each thread if none is given. -/
def usualCalls : Nat := 100

/-- The hook that is called if none is given. -/
def usualHook : String := "getattr"

/-- What came of the calls. -/
structure Result where
  calls : Nat
  hook : String
  threads : Nat
  tally : Tally
  stats : Stats
  deriving DecidableEq, Repr

/-- What is told of the calls, which have taken a time. -/
def Result.summary (r : Result) (elapsed : String) : List String :=
  [toString r.calls ++ " calls to '" ++ r.hook ++ "' on " ++ toString r.threads ++
      " thread(s) in " ++ elapsed,
    "  status ok: " ++ toString r.tally.ok ++ "  errno: " ++ toString r.tally.errno ++
      "  data: " ++ toString r.tally.data ++ "  failed: " ++ toString r.tally.failed,
    "  contexts created: " ++ toString r.stats.created ++ "  destroyed: " ++
      toString r.stats.destroyed ++ "  idle: " ++ toString r.stats.idle ++ "  (max_active=" ++
      toString r.stats.maxActive ++ ", max_idle=" ++ toString r.stats.maxIdle ++ ")"]

/-- What is wrong with the calls, if some have failed. -/
def Result.complaint? (r : Result) : Option String :=
  if 0 < r.tally.failed then
    some (toString r.tally.failed ++ " of " ++ toString r.calls ++ " calls failed")
  else none

/-- The kind of the manager that a command line asks for. -/
def planOf (files : Files) (given : Given) : Except Error Plan :=
  if given.single then .ok .single
  else (resolve files given.config given.sizes).map .pool

/-- A stress run that is over. -/
structure Over (σ : Type) where
  result : Result
  /-- What the shutdown came to. -/
  outcome : Option Outcome
  state : Lending.State σ

/-- The error that a stress run ends with, if any: that of the shutdown goes first. -/
def Over.error? {σ : Type} (ended : Over σ) : Option String :=
  match ended.outcome with
  | some (.failed e) => some e.withHint
  | _ => ended.result.complaint?

/-- The end of a stress run in which each worker was to make a number of calls. -/
def conclude {σ : Type} (invoke : Invoke σ) (crowd : Crowd σ) (calls : Nat) : Over σ :=
  let threads := crowd.workers.length
  let state := crowd.shutDown invoke
  { result := ⟨threads * calls, crowd.hook, threads, crowd.tally, crowd.stats⟩
    outcome := state.outcome? 0
    state := state }

/-- All calls through a manager, which is then shut down. -/
def drive {σ : Type} (invoke : Invoke σ) (state : Lending.State σ) (manager : ManagerId)
    (given : Given) : Over σ :=
  let hook := given.hook.getD usualHook
  let threads := given.threads.getD usualThreads
  let calls := given.calls.getD usualCalls
  let crowd := Crowd.spawn state manager hook (given.arguments.map parseArgument) threads calls
  conclude invoke (crowd.settle invoke) calls

end Stress
end CommandLine
end HookPool
