/-
# The state that callers share

The managers, the callers and their places, the factories, the clock and the events so far.  A
manager is known by its number, which is taken when its making begins; there is none under a number
whose making has failed, or whose manager was dropped.

A sink takes the events.  It can be armed with a text: it then panics once it has recorded an event
with that text in its wording, and the caller that reported the event comes to grief.
-/
import HookPool.Lending.Event
import HookPool.Lending.Factory
import HookPool.Lending.Manager
import HookPool.Lending.Place

namespace HookPool
namespace Lending

/-- Everything that callers share. -/
structure State (σ : Type) where
  /-- The manager number `n` is the one at `n - 1`. -/
  managers : List (Option (Manager σ)) := []
  places : List (Place σ) := []
  factories : List (Factory σ) := []
  /-- How many contexts were made. -/
  contextsMade : Nat := 0
  /-- The time in nanoseconds. -/
  clock : Nat := 0
  armed : Option String := none
  /-- The events, the newest first. -/
  events : List Event := []
  /-- The lines that scripts have printed, the newest first. -/
  printed : List ByteArray := []

/-- The characters occur one after the other among others. -/
def occursIn (text : List Char) : List Char → Bool
  | [] => text.isEmpty
  | c :: rest => text.isPrefixOf (c :: rest) || occursIn text rest

namespace State

variable {σ : Type}

/-! ## Managers -/

def manager? (s : State σ) (m : ManagerId) : Option (Manager σ) :=
  match m.number with
  | 0 => none
  | n + 1 => (s.managers[n]?).join

/-- Changes what stands under the number of a manager. -/
def setManager (s : State σ) (m : ManagerId) (manager : Option (Manager σ)) : State σ :=
  { s with managers := s.managers.set (m.number - 1) manager }

/-- Does something to a manager, if there is one. -/
def onManager (s : State σ) (m : ManagerId) (f : Manager σ → Manager σ) : State σ :=
  match s.manager? m with
  | some manager => s.setManager m (some (f manager))
  | none => s

/-- The number that the next manager gets. -/
def nextManager (s : State σ) : ManagerId := ⟨s.managers.length + 1⟩

/-- Takes a number for a manager that is being made. -/
def takeManagerId (s : State σ) : State σ :=
  { s with managers := s.managers ++ [none] }

/-! ## Callers -/

/-- Puts a caller in a place; a caller with the next number is a new one. -/
def put (s : State σ) (caller : Nat) (place : Place σ) : State σ :=
  if caller < s.places.length then { s with places := s.places.set caller place }
  else { s with places := s.places ++ [place] }

def finish (s : State σ) (caller : Nat) (outcome : Outcome) : State σ :=
  s.put caller (.finished outcome)

/-- What a sleeping opener of `m` does when it is woken: it asks again. -/
def awakened (m : ManagerId) : Place σ → Place σ
  | .asleep r => if r.manager = m then .asking r else .asleep r
  | place => place

/-- The callers that sleep on a manager, the one that came first in front. -/
def sleepers (s : State σ) (m : ManagerId) : List Nat :=
  (List.range s.places.length).filter fun i => (s.places[i]?).any (Place.sleepsOn m)

/-- Wakes one sleeper of a manager: `chosen`, if it is one, and else the first; nobody, if nobody
sleeps. -/
def wakeOne (s : State σ) (m : ManagerId) (chosen : Nat) : State σ :=
  let sleepers := s.sleepers m
  match if sleepers.contains chosen then some chosen else sleepers.head? with
  | some i => { s with places := s.places.modify i (awakened m) }
  | none => s

/-- Wakes all sleepers of a manager. -/
def wakeAll (s : State σ) (m : ManagerId) : State σ :=
  { s with places := s.places.map (awakened m) }

/-! ## Events -/

/-- Records an event without any risk. -/
def record (s : State σ) (e : Event) : State σ :=
  { s with events := e :: s.events }

/-- What a sink that panics says. -/
def sinkPayload : String := "log sink panicked"

/-- Reports an event; true if the sink panics. -/
def report (s : State σ) (e : Event) : State σ × Bool :=
  match s.armed with
  | some text =>
    if occursIn text.toList e.message.toList then ({ s.record e with armed := none }, true)
    else (s.record e, false)
  | none => (s.record e, false)

/-- Reports an event for a caller that may be unwinding, which a sink does no harm. -/
def reportFor (s : State σ) (unwinding : Bool) (e : Event) : State σ × Bool :=
  if unwinding then (s.record e, false) else s.report e

/-- Adds lines that were printed. -/
def print (s : State σ) (lines : List ByteArray) : State σ :=
  { s with printed := lines.reverse ++ s.printed }

/-! ## Contexts -/

/-- The end of a context, in the hands of a caller that is unwinding. -/
def wreck (s : State σ) (c : Context σ) : State σ :=
  s.record (.destroying c.id c.name)

def wreckAll (s : State σ) (contexts : List (Context σ)) : State σ :=
  contexts.foldl wreck s

/-- The end of a context. -/
def destroyFor (s : State σ) (unwinding : Bool) (c : Context σ) : State σ × Bool :=
  s.reportFor unwinding (.destroying c.id c.name)

def destroy (s : State σ) (c : Context σ) : State σ × Bool :=
  s.destroyFor false c

/-- The end of contexts, one after the other; all of them end, even if the sink panics. -/
def destroyAll (s : State σ) : List (Context σ) → State σ × Bool
  | [] => (s, false)
  | c :: rest =>
    match s.destroy c with
    | (s, true) => (s.wreckAll rest, true)
    | (s, false) => s.destroyAll rest

/-- What comes of building a context. -/
inductive Built (σ : Type) where
  | context (c : Context σ)
  | failed (error : Error)
  | panicked (payload : String)

/-- Asks a factory for a context, which has no owner yet. -/
def build (s : State σ) (factory : Nat) : State σ × Built σ :=
  match s.factories[factory]? with
  | none => (s, .panicked "")
  | some maker =>
    let s := { s with factories := s.factories.set factory { maker with asked := maker.asked + 1 } }
    match maker.product maker.asked with
    | .panics payload => (s, .panicked payload)
    | .failed error lines => (s.print lines, .failed error)
    | .loaded name script lines =>
      let c : Context σ := ⟨⟨s.contextsMade + 1⟩, none, name, script⟩
      let s := { s.print lines with contextsMade := s.contextsMade + 1 }
      match s.report (.constructed c.id name) with
      | (s, true) => (s.wreck c, .panicked sinkPayload)
      | (s, false) => (s, .context c)

/-! ## The clock -/

/-- The first time that the clock cannot show. -/
def clockEnd : Nat := Nat.pow 2 63 * Duration.nanosPerSecond

/-- When an opener gives up that is told a span; never, if the clock cannot show the time. -/
def deadline? (s : State σ) (timeout : Option Duration) : Option Deadline :=
  match timeout with
  | none => none
  | some after =>
    let time := s.clock + after.toNanos
    if time < clockEnd then some ⟨time, after⟩ else none

end State
end Lending
end HookPool
