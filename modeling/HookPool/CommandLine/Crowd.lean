/-
# Threads that call a hook

A crowd of workers makes calls through one manager.  Each of them makes the same number of calls,
one after the other, and counts what each one came to; in between, the others go on.  The one who
has made the manager waits until all are through, and shuts the manager down.

| worker | next step |
|---|---|
| with no call to count | begins its next call, if there is one |
| in a call | takes the next step of the call |
| at the end of a call | counts what it came to |

`act?` says what comes of whatever may happen next, in whatever order the workers go on.  `settle` is
the order in which the first one goes first.
-/
import HookPool.Lending.Schedule

namespace HookPool
namespace CommandLine

open Lending

/-- How many calls came to what. -/
structure Tally where
  ok : Nat := 0
  errno : Nat := 0
  data : Nat := 0
  failed : Nat := 0
  deriving DecidableEq, Repr

/-- Counts what a call came to. -/
def Tally.count (t : Tally) : Outcome → Tally
  | .replied (.status n) =>
    if n < 0 then { t with errno := t.errno + 1 } else { t with ok := t.ok + 1 }
  | .replied (.data _) => { t with data := t.data + 1 }
  | _ => { t with failed := t.failed + 1 }

/-- The number of calls that were counted. -/
def Tally.total (t : Tally) : Nat := t.ok + t.errno + t.data + t.failed

@[simp] theorem Tally.total_count (t : Tally) (o : Outcome) :
    (t.count o).total = t.total + 1 := by
  unfold Tally.count Tally.total
  split
  · split <;> simp only [] <;> omega
  · simp only []; omega
  · simp only []; omega

/-- A thread that calls the hook. -/
structure Worker where
  /-- How many calls it has yet to begin. -/
  left : Nat
  /-- It has begun a call that it has not counted. -/
  busy : Bool
  deriving DecidableEq, Repr

/-- Workers that call a hook through a manager. -/
structure Crowd (σ : Type) where
  state : Lending.State σ
  manager : ManagerId
  hook : String
  arguments : List HookArg
  /-- The worker `i` is the caller `first + i`. -/
  first : Nat
  workers : List Worker
  tally : Tally := {}

/-- What may happen next. -/
inductive Act where
  /-- A worker takes its next step, and `chosen` is woken if the step wakes one sleeper. -/
  | step (worker chosen : Nat)
  /-- A worker that sleeps wakes up without any cause. -/
  | rouse (worker : Nat)
  deriving DecidableEq, Repr

namespace Crowd

variable {σ : Type}

/-- The threads are there, and none of them has begun anything. -/
def spawn (state : Lending.State σ) (manager : ManagerId) (hook : String)
    (arguments : List HookArg) (threads calls : Nat) : Crowd σ where
  state := { state with places := state.places ++ List.replicate threads (.finished .done) }
  manager := manager
  hook := hook
  arguments := arguments
  first := state.places.length
  workers := List.replicate threads ⟨calls, false⟩

/-- All workers are through. -/
def isJoined (c : Crowd σ) : Bool :=
  c.workers.all fun w => w.left = 0 && !w.busy

/-- A worker counts what its call came to; a failure is reported. -/
def count (c : Crowd σ) (worker left : Nat) (o : Outcome) : Crowd σ :=
  { c with
    state := match o with
      | .failed e => c.state.record (.callFailed c.hook e)
      | _ => c.state
    workers := c.workers.set worker ⟨left, false⟩
    tally := c.tally.count o }

/-- The next step of a worker; none if it sleeps or is through. -/
def step? (invoke : Invoke σ) (c : Crowd σ) (worker chosen : Nat) : Option (Crowd σ) :=
  let caller := c.first + worker
  match c.workers[worker]? with
  | none | some ⟨0, false⟩ => none
  | some ⟨left + 1, false⟩ =>
    (c.state.begin? caller (.acquire c.manager (.call c.hook c.arguments) none)).map fun state =>
      { c with state, workers := c.workers.set worker ⟨left, true⟩ }
  | some ⟨left, true⟩ =>
    match c.state.outcome? caller with
    | some o => some (c.count worker left o)
    | none => (c.state.step? invoke caller chosen).map fun state => { c with state }

/-- What comes of what happens next, if it is possible. -/
def act? (invoke : Invoke σ) (c : Crowd σ) : Act → Option (Crowd σ)
  | .step worker chosen => c.step? invoke worker chosen
  | .rouse worker => (c.state.rouse? (c.first + worker)).map fun state => { c with state }

/-- What comes of acts that follow each other. -/
def run (invoke : Invoke σ) (c : Crowd σ) : List Act → Option (Crowd σ)
  | [] => some c
  | a :: acts => (c.act? invoke a).bind fun c => c.run invoke acts

/-- The first worker that can take a step takes it. -/
def stepFirst? (invoke : Invoke σ) (c : Crowd σ) : Option (Crowd σ) :=
  (List.range c.workers.length).findSome? fun worker =>
    c.step? invoke worker c.state.places.length

/-- The workers take steps, at most as many as told, until nobody can take one. -/
def settleWithin (invoke : Invoke σ) : Nat → Crowd σ → Crowd σ
  | 0, c => c
  | fuel + 1, c =>
    match c.stepFirst? invoke with
    | some c => settleWithin invoke fuel c
    | none => c

/-- How many calls the workers have yet to begin. -/
def callsLeft (c : Crowd σ) : Nat := c.workers.foldr (fun w n => w.left + n) 0

/-- No call takes more steps than this one. -/
def stepsPerCall : Nat := 10

/-- The workers go on until all are through. -/
def settle (invoke : Invoke σ) (c : Crowd σ) : Crowd σ :=
  settleWithin invoke (stepsPerCall * c.callsLeft) c

/-- What the manager tells of itself. -/
def stats (c : Crowd σ) : Stats :=
  ((c.state.manager? c.manager).map Manager.stats).getD ⟨0, 0, 0, 0, 0, 0⟩

/-- The one who has made the manager shuts it down. -/
def shutDown (invoke : Invoke σ) (c : Crowd σ) : Lending.State σ :=
  c.state.start invoke 0 (.shutDown c.manager)

end Crowd
end CommandLine
end HookPool
