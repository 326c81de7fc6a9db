/-
# Errors

Whatever can go wrong when scripts are loaded, contexts are lent and hooks are run.  Each cause is
a constructor that holds what its message needs; `message` is the wording, and `withHint` adds
advice to the four kinds that a user can do something about.

A context that is refused because another manager lent it stays with its holder: the error carries
its identity (`context?`).
-/
import HookPool.Config.Basic
import HookPool.Duration
import HookPool.Identity
import HookPool.IoError
import HookPool.Json.Problem

namespace HookPool

/-- Why a script gives no context. -/
inductive ScriptFault where
  /-- It does not compile, or running it raised an error. -/
  | raised (message : String)
  /-- It gave a value of another type than a table. -/
  | notATable (type : String)
  deriving DecidableEq, Repr

/-- Why a hook gives no reply. -/
inductive HookFault where
  /-- Looking it up or running it raised an error. -/
  | raised (message : String)
  /-- Its entry in the table is no function. -/
  | notAFunction (type : String)
  /-- It returned a value that is no reply. -/
  | badReply (type : String)
  deriving DecidableEq, Repr

/-- Everything that can go wrong. -/
inductive Error where
  | script (name : String) (fault : ScriptFault)
  | hook (hook : String) (fault : HookFault)
  | invalidConfig (fault : ConfigFault)
  | config (place : Json.Place)
  | contextsOutstanding (active : Nat)
  | foreignContext (context : ContextId)
  | managerClosed
  | timeout (after : Duration)
  | lockPoisoned (detail : String)
  | io (error : IoError)
  deriving DecidableEq

def ScriptFault.message : ScriptFault → String
  | .raised message => message
  | .notATable type => "chunk returned a " ++ type ++ ", expected a table"

def HookFault.message : HookFault → String
  | .raised message => message
  | .notAFunction type => "expected a function, found a " ++ type
  | .badReply type => "must return an integer or a string, got a " ++ type

namespace Error

/-- The wording of an error. -/
def message : Error → String
  | .script name fault => "failed to load script '" ++ name ++ "': " ++ fault.message
  | .hook name fault => "hook '" ++ name ++ "' failed: " ++ fault.message
  | .invalidConfig fault => "invalid configuration: " ++ fault.message
  | .config place => "configuration parse error: " ++ place.message
  | .contextsOutstanding active =>
    toString active ++ " execution context(s) still checked out at teardown"
  | .foreignContext context =>
    "context " ++ context.name ++ " was not lent out by this manager"
  | .managerClosed => "context manager is shut down"
  | .timeout after => "timed out after " ++ after.render ++ " waiting for an execution context"
  | .lockPoisoned detail => "manager lock poisoned: " ++ detail
  | .io error => "IO error: " ++ error.message

/-- The advice for an error, if there is any. -/
def hint? : Error → Option String
  | .script .. => some "the script must be a Lua chunk that returns a table of hooks"
  | .invalidConfig _ => some "check start_count <= max_active and max_active >= 1"
  | .contextsOutstanding _ =>
    some "every open() must be paired with close(); prefer ContextLease"
  | .timeout _ => some "raise max_active or shorten hook run time"
  | _ => none

/-- The wording of an error, and its advice on a line of its own. -/
def withHint (e : Error) : String :=
  match e.hint? with
  | some hint => e.message ++ "\n  hint: " ++ hint
  | none => e.message

/-- The context that the error carries back. -/
def context? : Error → Option ContextId
  | .foreignContext context => some context
  | _ => none

/-- What every operation on a manager answers after a thread has come to grief in its lock. -/
def lockFailed : Error :=
  .lockPoisoned
    "thread panicked while holding the manager lock: poisoned lock: another task failed inside"

end Error
end HookPool
