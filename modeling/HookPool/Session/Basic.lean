/-
# Sessions

A session is a list of steps on factories, managers and contexts that go by labels.  The types here
are what a step is told and what it answers.

A step that opens a context may have to wait.  If it is told to wait no longer than a second, and
not in the background, its answer is what the wait came to; else the answer is that it is blocked,
and the step that lets it go on tells what it came to.
-/
import HookPool.Lending.Schedule
import HookPool.Script.State

namespace HookPool
namespace Session

open Lending

/-- What a factory does when it is asked for a context. -/
inductive Recipe where
  | script (payload : ByteArray)
  | fail (message : String)
  | panic (payload : String)

/-- The factories that a session can make. -/
inductive Maker where
  /-- It loads the same script each time. -/
  | source (source : Script.Source)
  /-- It follows recipes one after the other, and the last one for ever. -/
  | recipes (name : String) (recipes : List Recipe)

/-- What a global can be set to. -/
inductive Setting where
  | nothing
  | truth (value : Bool)
  | integer (value : Int64)
  | text (value : String)

/-- A step of a session. -/
inductive Step where
  | factory (label : String) (maker : Maker)
  | establish (label factory : String) (plan : Plan)
  | create (label factory : String)
  | acquire (label manager : String) (leased : Bool) (timeout : Option Duration)
      (background : Bool)
  | call (manager hook : String) (arguments : List HookArg)
  | close (manager context : String)
  | release (context : String)
  | leave (context : String)
  | unwind (context : String)
  | shutDown (manager : String)
  | dropManager (manager : String)
  | set (context key : String) (value : Setting)
  | get (context key : String)
  | lookUp (context hook : String)
  | inspect (context : String)
  | arm (text : String)
  | join

/-- What a step answers. -/
inductive Answer where
  | factory (name : String) (size : Option Nat)
  | manager (id : ManagerId) (plan : Plan)
  | context (id : ContextId)
  | blocked
  | outcome (outcome : Outcome)
  /-- The manager did not lend the context, which stays under its label. -/
  | refused (id : ContextId)
  | value (value : Script.Value)
  /-- Whether a hook is defined. -/
  | defined (found : Except Error Bool)
  | inspected (id : ContextId) (name description : String)

/-- What a blocked step has come to. -/
structure Woken where
  manager : String
  /-- The label that its context goes by. -/
  label : Option String
  answer : Answer

/-- A step's answer, and what is to be seen after the step. -/
structure Report where
  answer : Answer
  /-- What each manager tells of itself. -/
  stats : List (String × Stats)
  /-- How many steps are blocked. -/
  blocked : Nat
  woken : List Woken
  events : List Event

/-- A step that is blocked. -/
structure Waiter where
  manager : String
  label : Option String
  caller : Nat

end Session

/-- What the labels of a session stand for, and which of its steps are blocked, the oldest one
first. -/
structure Session where
  state : Lending.State Script.State := {}
  factories : List (String × Nat) := []
  managers : List (String × ManagerId) := []
  /-- The callers that hold contexts. -/
  held : List (String × Nat) := []
  waiting : List Session.Waiter := []

end HookPool
