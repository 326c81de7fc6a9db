/-
# Events

What happens to contexts and managers is reported as it happens.  Each kind of event is a
constructor with what its wording needs; `level` says how grave it is and `message` is the wording.
-/
import HookPool.Error

namespace HookPool
namespace Lending

/-- How grave an event is. -/
inductive Level where
  | trace
  | debug
  | info
  | warn
  | error
  deriving DecidableEq, Repr

/-- The place of a level among all, the least grave one first. -/
def Level.rank : Level → Nat
  | .trace => 0
  | .debug => 1
  | .info => 2
  | .warn => 3
  | .error => 4

def Level.name : Level → String
  | .trace => "TRACE"
  | .debug => "DEBUG"
  | .info => "INFO"
  | .warn => "WARN"
  | .error => "ERROR"

/-- What can happen to contexts and managers. -/
inductive Event where
  /-- A script was loaded into a new context. -/
  | constructed (context : ContextId) (name : String)
  /-- A context comes to its end. -/
  | destroying (context : ContextId) (name : String)
  /-- A pool was made with its first contexts. -/
  | warmedUp (manager : ManagerId) (count : Nat) (name : String) (maxActive maxIdle : Nat)
  /-- A manager of one context was made. -/
  | holds (manager : ManagerId) (context : ContextId) (name : String)
  | lentIdle (manager : ManagerId) (context : ContextId) (active : Nat)
  | lentOnly (manager : ManagerId) (context : ContextId)
  /-- A pool has built a context to lend. -/
  | grew (manager : ManagerId) (context : ContextId)
  | buildFailed (manager : ManagerId) (error : Error)
  | recycled (manager : ManagerId) (context : ContextId) (active : Nat)
  | gotBack (manager : ManagerId) (context : ContextId)
  | evicted (manager : ManagerId) (context : ContextId)
  | notLentHere (context : ContextId) (manager : ManagerId)
  | leaseNotReturned (error : Error)
  | hookUndefined (hook name : String)
  | callFailed (hook : String) (error : Error)
  | shutDown (manager : ManagerId)
  | shutDownEarly (manager : ManagerId) (active : Nat)
  | onlyShutDownEarly (manager : ManagerId)
  | droppedEarly (manager : ManagerId) (active : Nat)
  | onlyDroppedEarly (manager : ManagerId)
  deriving DecidableEq

namespace Event

/-- How grave an event of a kind is. -/
def level : Event → Level
  | .destroying .. | .lentIdle .. | .lentOnly .. | .recycled .. | .gotBack .. => .trace
  | .hookUndefined .. => .trace
  | .constructed .. | .grew .. | .evicted .. => .debug
  | .warmedUp .. | .holds .. | .shutDown .. => .info
  | .buildFailed .. | .callFailed .. => .warn
  | .notLentHere .. | .leaseNotReturned .. => .error
  | .shutDownEarly .. | .onlyShutDownEarly .. => .error
  | .droppedEarly .. | .onlyDroppedEarly .. => .error

/-- The number of contexts that are lent, as some events tell it. -/
def activeNote (active : Nat) : String :=
  " (active=" ++ toString active ++ ")"

/-- The wording of an event. -/
def message : Event → String
  | .constructed c name => "Constructed " ++ c.name ++ " from '" ++ name ++ "'"
  | .destroying c name => "Destroying " ++ c.name ++ " ('" ++ name ++ "')"
  | .warmedUp m count name maxActive maxIdle =>
    m.name ++ " warmed up " ++ toString count ++ " context(s) for '" ++ name ++
      "' (max_active=" ++ toString maxActive ++ ", max_idle=" ++ toString maxIdle ++ ")"
  | .holds m c name => m.name ++ " holds " ++ c.name ++ " for '" ++ name ++ "'"
  | .lentIdle m c active => m.name ++ " lent idle " ++ c.name ++ activeNote active
  | .lentOnly m c => m.name ++ " lent " ++ c.name
  | .grew m c => m.name ++ " grew by " ++ c.name
  | .buildFailed m e => m.name ++ " failed to build a context: " ++ e.message
  | .recycled m c active => m.name ++ " recycled " ++ c.name ++ activeNote active
  | .gotBack m c => m.name ++ " got back " ++ c.name
  | .evicted m c => m.name ++ " evicted " ++ c.name
  | .notLentHere c m => c.name ++ " returned to " ++ m.name ++ " which did not lend it"
  | .leaseNotReturned e => "Failed to return leased context: " ++ e.message
  | .hookUndefined hook name => "Hook '" ++ hook ++ "' not defined in '" ++ name ++ "'"
  | .callFailed hook e => "Call to '" ++ hook ++ "' failed: " ++ e.message
  | .shutDown m => m.name ++ " shut down cleanly"
  | .shutDownEarly m active =>
    m.name ++ " shut down with " ++ toString active ++ " context(s) checked out"
  | .onlyShutDownEarly m => m.name ++ " shut down while its context is checked out"
  | .droppedEarly m active =>
    m.name ++ " dropped with " ++ toString active ++ " context(s) still checked out"
  | .onlyDroppedEarly m => m.name ++ " dropped while its context is checked out"

/-- An event with its level, as a log shows it. -/
def line (e : Event) : String :=
  e.level.name ++ " " ++ e.message

end Event
end Lending
end HookPool
