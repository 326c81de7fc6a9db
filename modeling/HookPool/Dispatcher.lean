/-
# Calls through a manager

A dispatcher routes calls of hooks through one manager of contexts.  Calls that follow each other
never wait: each one gives its context back before the next one begins.
-/
import HookPool.Lending.Schedule
import HookPool.Script.State

namespace HookPool

open Lending

/-- A manager, in the state that it shares with its callers. -/
structure Dispatcher (σ : Type) where
  state : Lending.State σ
  manager : ManagerId

namespace Dispatcher

variable {σ : Type}

/-- The state in which nothing has happened yet but a factory was made. -/
def stateOf (factory : Factory σ) : Lending.State σ := { factories := [factory] }

variable (invoke : Invoke σ)

/-- What comes of making a manager: its number, or why there is none; with the state afterwards. -/
def establish (factory : Factory σ) (plan : Plan) : Outcome × Lending.State σ :=
  let state := (stateOf factory).start invoke 0 (.establish 0 plan)
  ((state.outcome? 0).getD .done, state)

/-- Does something and tells what came of it. -/
def perform (d : Dispatcher σ) (operation : Operation) : Outcome × Dispatcher σ :=
  let state := d.state.start invoke 0 operation
  ((state.outcome? 0).getD .done, { d with state })

/-- Calls a hook. -/
def call (d : Dispatcher σ) (hook : String) (arguments : List HookArg) : Outcome × Dispatcher σ :=
  d.perform invoke (.acquire d.manager (.call hook arguments) none)

/-- Calls hooks, one after the other. -/
def callAll (d : Dispatcher σ) : List (String × List HookArg) → List Outcome × Dispatcher σ
  | [] => ([], d)
  | (hook, arguments) :: calls =>
    let (outcome, d) := d.call invoke hook arguments
    let (outcomes, d) := callAll d calls
    (outcome :: outcomes, d)

def shutDown (d : Dispatcher σ) : Outcome × Dispatcher σ :=
  d.perform invoke (.shutDown d.manager)

/-- What the manager tells of itself. -/
def stats (d : Dispatcher σ) : Stats :=
  ((d.state.manager? d.manager).map Manager.stats).getD ⟨0, 0, 0, 0, 0, 0⟩

/-- What calls and a shutdown came to, and what the manager told before and after the shutdown. -/
structure Report where
  replies : List Outcome
  stats : Stats
  shutDown : Outcome
  after : Stats

/-- Makes a manager of scripts, calls hooks and shuts the manager down; or tells why there is no
manager. -/
def reportOf (source : Script.Source) (plan : Plan) (calls : List (String × List HookArg)) :
    Except Outcome Report :=
  match establish Script.invoke source.factory plan with
  | (.made manager, state) =>
    let (replies, d) := (Dispatcher.mk state manager).callAll Script.invoke calls
    let (outcome, after) := d.shutDown Script.invoke
    .ok ⟨replies, d.stats, outcome, after.stats⟩
  | (outcome, _) => .error outcome

end Dispatcher
end HookPool
