/-
# What can be said on a command line

A command line is one of two commands with options.  A flag stands alone; a setting has a value,
which follows it or is attached to it.  Every flag and every setting may be given once, except for
`--arg`, whose values add up.

| place | flags | settings |
|---|---|---|
| before the command | `--verbose` `--help` `--version` | |
| `check SCRIPT` | `--verbose` `--help` | `--name` |
| `stress SCRIPT` | `--verbose` `--help` `--single` | `--hook` `--arg` `--threads` `--calls` `--config` `--start-count` `--max-active` `--max-idle` |
-/
import HookPool.Config.Environment
import HookPool.Text.Numeral

namespace HookPool
namespace CommandLine

/-- Where in a command line an option stands. -/
inductive Scope where
  | top
  | check
  | stress
  deriving DecidableEq, Repr

inductive Flag where
  | verbose
  | single
  | version
  | help
  deriving DecidableEq, Repr

inductive Setting where
  | name
  | hook
  | argument
  | threads
  | calls
  | config
  | startCount
  | maxActive
  | maxIdle
  deriving DecidableEq, Repr

/-- What the word of an option stands for. -/
inductive Switch where
  | flag (flag : Flag)
  | setting (setting : Setting)
  deriving DecidableEq, Repr

/-- The long word of a flag. -/
def Flag.word : Flag → String
  | .verbose => "verbose"
  | .single => "single"
  | .version => "version"
  | .help => "help"

/-- The long word of a setting. -/
def Setting.word : Setting → String
  | .name => "name"
  | .hook => "hook"
  | .argument => "arg"
  | .threads => "threads"
  | .calls => "calls"
  | .config => "config"
  | .startCount => "start-count"
  | .maxActive => "max-active"
  | .maxIdle => "max-idle"

/-- What the value of a setting is called. -/
def Setting.valueName : Setting → String
  | .name => "NAME"
  | .hook => "HOOK"
  | .argument => "ARGS"
  | .threads => "THREADS"
  | .calls => "CALLS"
  | .config => "CONFIG"
  | .startCount => "START_COUNT"
  | .maxActive => "MAX_ACTIVE"
  | .maxIdle => "MAX_IDLE"

/-- A flag as messages show it. -/
def Flag.shown (f : Flag) : String := "--" ++ f.word

/-- A setting as messages show it. -/
def Setting.shown (s : Setting) : String := "--" ++ s.word ++ " <" ++ s.valueName ++ ">"

/-- The script as messages show it. -/
def scriptShown : String := "<SCRIPT>"

/-- The flags that may stand in a place. -/
def flagsIn : Scope → List Flag
  | .top => [.verbose, .help, .version]
  | .check => [.verbose, .help]
  | .stress => [.verbose, .help, .single]

/-- The settings that may stand in a place. -/
def settingsIn : Scope → List Setting
  | .top => []
  | .check => [.name]
  | .stress =>
    [.hook, .argument, .threads, .calls, .config, .startCount, .maxActive, .maxIdle]

/-- The option that a long word names. -/
def longOption? (scope : Scope) (word : String) : Option Switch :=
  match (flagsIn scope).find? fun f => f.word == word with
  | some f => some (.flag f)
  | none => ((settingsIn scope).find? fun s => s.word == word).map .setting

/-- The option that a letter names. -/
def shortOption? (scope : Scope) (letter : Char) : Option Switch :=
  match scope, letter with
  | _, 'v' => some (.flag .verbose)
  | _, 'h' => some (.flag .help)
  | .top, 'V' => some (.flag .version)
  | .stress, 't' => some (.setting .threads)
  | .stress, 'c' => some (.setting .calls)
  | _, _ => none

/-- Why a command line is refused. -/
inductive Fault where
  | unexpectedArgument (argument : String)
  /-- A flag has a value. -/
  | unexpectedValue (value : String) (flag : Flag)
  /-- What is `shown` has no value, or an empty path. -/
  | valueRequired (shown : String)
  | invalidValue (value : String) (setting : Setting) (fault : Text.NumeralFault)
  /-- What is `shown` was given twice. -/
  | repeated (shown : String)
  | invalidText
  /-- There is no script. -/
  | scriptRequired
  | unrecognizedCommand (word : String)
  | commandRequired
  deriving DecidableEq, Repr

/-- The wording of a fault. -/
def Fault.message : Fault → String
  | .unexpectedArgument argument => "unexpected argument '" ++ argument ++ "' found"
  | .unexpectedValue value flag =>
    "unexpected value '" ++ value ++ "' for '" ++ flag.shown ++ "' found; no more were expected"
  | .valueRequired shown => "a value is required for '" ++ shown ++ "' but none was supplied"
  | .invalidValue value setting fault =>
    "invalid value '" ++ value ++ "' for '" ++ setting.shown ++ "': " ++ fault.message
  | .repeated shown => "the argument '" ++ shown ++ "' cannot be used multiple times"
  | .invalidText => "invalid UTF-8 was detected in one or more arguments"
  | .scriptRequired => "the following required arguments were not provided:\n  " ++ scriptShown
  | .unrecognizedCommand word => "unrecognized subcommand '" ++ word ++ "'"
  | .commandRequired => "'hookfs' requires a subcommand but one was not provided"

/-- Why a command line is not carried out. -/
inductive Stop where
  | fault (fault : Fault)
  /-- It asks for the version of the program. -/
  | version
  /-- It asks for help on a place. -/
  | help (scope : Scope)
  /-- It says nothing at all. -/
  | silent
  deriving DecidableEq, Repr

/-- What a command line gives. -/
structure Given where
  script : Option String := none
  name : Option String := none
  hook : Option String := none
  arguments : List String := []
  threads : Option Nat := none
  calls : Option Nat := none
  config : Option String := none
  sizes : Sizes := {}
  single : Bool := false
  verbose : Bool := false
  deriving DecidableEq, Repr

namespace Given

/-- The setting has a value that no other may replace. -/
def has (g : Given) : Setting → Bool
  | .name => g.name.isSome
  | .hook => g.hook.isSome
  | .argument => false
  | .threads => g.threads.isSome
  | .calls => g.calls.isSome
  | .config => g.config.isSome
  | .startCount => g.sizes.startCount.isSome
  | .maxActive => g.sizes.maxActive.isSome
  | .maxIdle => g.sizes.maxIdle.isSome

/-- The number that the value of a setting denotes. -/
def number (setting : Setting) (value : String) : Except Fault Nat :=
  (Text.readUnsigned Text.maxWord value.toList).mapError (.invalidValue value setting)

/-- Takes the value of a setting. -/
def put (g : Given) (setting : Setting) (value : String) : Except Fault Given :=
  match setting with
  | .name => .ok { g with name := some value }
  | .hook => .ok { g with hook := some value }
  | .argument => .ok { g with arguments := g.arguments ++ [value] }
  | .threads => (number setting value).map fun n => { g with threads := some n }
  | .calls => (number setting value).map fun n => { g with calls := some n }
  | .config =>
    if value = "" then .error (.valueRequired setting.shown)
    else .ok { g with config := some value }
  | .startCount =>
    (number setting value).map fun n => { g with sizes := { g.sizes with startCount := some n } }
  | .maxActive =>
    (number setting value).map fun n => { g with sizes := { g.sizes with maxActive := some n } }
  | .maxIdle =>
    (number setting value).map fun n => { g with sizes := { g.sizes with maxIdle := some n } }

/-- Takes the value of a setting, which must not have one. -/
def putOnce (g : Given) (setting : Setting) (value : String) : Except Fault Given :=
  if g.has setting then .error (.repeated setting.shown) else g.put setting value

/-- Takes the script. -/
def putScript (g : Given) (path : String) : Except Fault Given :=
  if path = "" then .error (.valueRequired scriptShown) else .ok { g with script := some path }

/-- Raises a flag, in a place. -/
def raise (g : Given) (scope : Scope) : Flag → Except Stop Given
  | .verbose =>
    if g.verbose then .error (.fault (.repeated Flag.verbose.shown))
    else .ok { g with verbose := true }
  | .single =>
    if g.single then .error (.fault (.repeated Flag.single.shown))
    else .ok { g with single := true }
  | .version => .error .version
  | .help => .error (.help scope)

end Given
end CommandLine
end HookPool
