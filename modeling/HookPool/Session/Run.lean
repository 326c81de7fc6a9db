/-
# Running sessions

The steps of a session follow each other, and after each one all blocked steps go on as far as they
can.  Time passes only while a step waits.
-/
import HookPool.Session.Basic

namespace HookPool
namespace Session

open Lending

/-! ## Labels -/

/-- What a label stands for. -/
def find? {α : Type} (labels : List (String × α)) (label : String) : Option α :=
  (labels.find? fun entry => entry.1 == label).map (·.2)

/-- The labels without one of them. -/
def without {α : Type} (labels : List (String × α)) (label : String) : List (String × α) :=
  labels.filter fun entry => entry.1 != label

/-- The labels with one of them for something else. -/
def labelled {α : Type} (labels : List (String × α)) (label : String) (a : α) :
    List (String × α) :=
  without labels label ++ [(label, a)]

/-! ## Factories -/

/-- What a recipe gives under the name of a factory. -/
def Recipe.product (name : String) : Recipe → Product Script.State
  | .script payload => Script.Source.product ⟨payload, name⟩
  | .fail message => .failed (.script name (.raised message)) []
  | .panic payload => .panics payload

def Maker.name : Maker → String
  | .source script => script.name
  | .recipes name _ => name

/-- The number of bytes of the script, if there is only one. -/
def Maker.size? : Maker → Option Nat
  | .source script => some script.payload.size
  | .recipes _ _ => none

def Maker.factory : Maker → Factory Script.State
  | .source script => script.factory
  | .recipes name list =>
    { name := name
      product := fun n =>
        ((list[min n (list.length - 1)]?).map (Recipe.product name)).getD (.panics "") }

/-! ## Callers -/

variable (s : Session)

/-- The number of the next caller. -/
def nextCaller : Nat := s.state.places.length

/-- Begins an operation as a new caller. -/
def start (operation : Operation) : Session :=
  { s with state := s.state.start Script.invoke s.nextCaller operation }

/-- What a caller has come to, if it does not wait. -/
def answerOf? (caller : Nat) : Option Answer :=
  match s.state.places[caller]? with
  | some (.finished outcome) => some (.outcome outcome)
  | some (.holding _ c) => some (.context c.id)
  | some (.refused c) => some (.refused c.id)
  | _ => none

def answerOf (caller : Nat) : Answer :=
  (s.answerOf? caller).getD .blocked

/-- Gives a label to what a caller holds, if it holds something. -/
def hold (label : Option String) (caller : Nat) : Session :=
  match label, s.state.places[caller]? with
  | some label, some (.holding _ _) => { s with held := labelled s.held label caller }
  | _, _ => s

/-- The context that a caller holds. -/
def contextOf? (caller : Nat) : Option (Context Script.State) :=
  match s.state.places[caller]? with
  | some (.holding _ c) => some c
  | _ => none

/-! ## Steps -/

/-- The answer to a step that names what there is not. -/
def nothing : Answer := .outcome .done

/-- The longest time for which a step waits before it answers. -/
def patience : Nat := Duration.nanosPerSecond

/-- Opens a context, or calls a hook. -/
def acquire (label : Option String) (manager : String) (purpose : Purpose)
    (timeout : Option Duration) (background : Bool) : Session × Answer :=
  match find? s.managers manager with
  | none => (s, nothing)
  | some m =>
    let caller := s.nextCaller
    let s := s.start (.acquire m purpose timeout)
    let s :=
      match timeout, s.answerOf? caller with
      | some span, none =>
        if span.toNanos ≤ patience && !background then
          { s with state := s.state.passUntil Script.invoke (s.state.clock + span.toNanos) }
        else s
      | _, _ => s
    match s.answerOf? caller with
    | some answer => (s.hold label caller, answer)
    | none => ({ s with waiting := s.waiting ++ [⟨manager, label, caller⟩] }, .blocked)

/-- Does something with a context, and forgets its label unless the manager refuses it. -/
def giveAway (label : String) (handling : Handling) : Session × Answer :=
  match find? s.held label with
  | none => (s, nothing)
  | some caller =>
    let s := { s with state := s.state.handle Script.invoke caller handling }
    match s.answerOf caller with
    | .refused id =>
      ({ s with state := s.state.handle Script.invoke caller .recover }, .refused id)
    | answer => ({ s with held := without s.held label }, answer)

/-- Works with the script of a context. -/
def work (label : String) (f : Context Script.State → Answer × Script.State) :
    Session × Answer :=
  match (find? s.held label).bind fun caller => (s.contextOf? caller).map (caller, ·) with
  | none => (s, nothing)
  | some (caller, c) =>
    let (answer, script) := f c
    ({ s with state := (s.state.use? caller script).getD s.state }, answer)

/-- The value of a script that a setting stands for. -/
def Setting.value : Setting → Script.Value
  | .nothing => .nil
  | .truth b => .boolean b
  | .integer n => .int n
  | .text t => .text t

/-- An answer that tells what is wrong with a context's script. -/
def fault (c : Context Script.State) (message : String) : Answer :=
  .outcome (.failed (.script c.name (.raised message)))

/-- What a new caller has come to after it did something. -/
def perform (operation : Operation) : Session × Answer :=
  let next := s.start operation
  (next, next.answerOf s.nextCaller)

/-- How long a step waits for the blocked ones. -/
def joinTime : Nat := 3 * Duration.nanosPerSecond

/-- What a hook of a session says when it comes to grief. -/
def unwindPayload : String := "hook blew up"

/-- What comes of one step, before the blocked steps that it let go on are told. -/
def perStep : Step → Session × Answer
  | .factory label maker =>
    let factories := labelled s.factories label s.state.factories.length
    let state := { s.state with factories := s.state.factories ++ [maker.factory] }
    ({ s with state, factories }, .factory maker.name maker.size?)
  | .establish label factory plan =>
    match find? s.factories factory with
    | none => (s, nothing)
    | some f =>
      match s.perform (.establish f plan) with
      | (s, .outcome (.made m)) =>
        ({ s with managers := labelled s.managers label m }, .manager m plan)
      | other => other
  | .create label factory =>
    match find? s.factories factory with
    | none => (s, nothing)
    | some f =>
      let caller := s.nextCaller
      let (s, answer) := s.perform (.create f)
      (s.hold (some label) caller, answer)
  | .acquire label manager leased timeout background =>
    s.acquire (some label) manager (if leased then .lease else .hold) timeout background
  | .call manager hook arguments => s.acquire none manager (.call hook arguments) none false
  | .close manager context =>
    match find? s.managers manager with
    | none => (s, nothing)
    | some m => s.giveAway context (.close m)
  | .release context => s.giveAway context .release
  | .leave context => s.giveAway context .leave
  | .unwind context => s.giveAway context (.unwind unwindPayload)
  | .shutDown manager =>
    match find? s.managers manager with
    | none => (s, nothing)
    | some m => s.perform (.shutDown m)
  | .dropManager manager =>
    match find? s.managers manager with
    | none => (s, nothing)
    | some m =>
      let (next, answer) := s.perform (.dropManager m)
      ({ next with managers := without s.managers manager },
        if answer matches .blocked then nothing else answer)
  | .set context key value => s.work context fun c =>
    match c.script.setGlobal key value.value with
    | (.ok (), script) => (.outcome .done, script)
    | (.error message, script) => (fault c message, script)
  | .get context key => s.work context fun c =>
    match c.script.getGlobal key with
    | (.ok v, script) => (.value v, script)
    | (.error message, script) => (fault c message, script)
  | .lookUp context hook => s.work context fun c =>
    let (found, script) := c.script.lookUp hook
    (.defined (found.map Option.isSome), script)
  | .inspect context => s.work context fun c =>
    (.inspected c.id c.name c.describe, c.script)
  | .arm text => ({ s with state := { s.state with armed := some text } }, .outcome .done)
  | .join =>
    ({ s with state := s.state.passUntil Script.invoke (s.state.clock + joinTime) },
      .outcome .done)

/-! ## Blocked steps that went on -/

/-- Contexts come before replies, and these before errors; contexts are ordered by number. -/
def Answer.rank : Answer → Nat × Nat
  | .context id => (0, id.number)
  | .outcome (.replied _) => (1, 0)
  | _ => (2, 0)

def rankLe (a b : Nat × Nat) : Bool :=
  a.1 < b.1 || (a.1 == b.1 && a.2 ≤ b.2)

/-- The blocked steps on one manager that went on: what they came to goes to the labels of the
oldest ones, and the other labels wait with the other callers. -/
def wakeOn (manager : String) : Session × List Woken :=
  let waiters := s.waiting.filter fun w => w.manager == manager
  let settled := waiters.filterMap fun w => (s.answerOf? w.caller).map (w.caller, ·)
  let ordered := settled.mergeSort fun a b => rankLe a.2.rank b.2.rank
  let still := waiters.filter fun w => (s.answerOf? w.caller).isNone
  let labels := waiters.map (·.label)
  let woken := (labels.zip ordered).map fun (label, caller, answer) => (label, caller, answer)
  let waiting := ((labels.drop ordered.length).zip still).map fun (label, w) => { w with label }
  let s := { s with waiting := s.waiting.filter (fun w => w.manager != manager) ++ waiting }
  let s := woken.foldl (fun s (label, caller, _) => s.hold label caller) s
  (s, woken.map fun (label, _, answer) => ⟨manager, label, answer⟩)

/-- The labels without repetitions, in the order of their characters. -/
def sortedLabels (labels : List String) : List String :=
  (labels.mergeSort fun a b => !(b < a)).eraseDups

/-- All blocked steps that went on, manager by manager. -/
def wakeAll : Session × List Woken :=
  (sortedLabels (s.waiting.map (·.manager))).foldl (fun (s, woken) manager =>
    let (s, more) := s.wakeOn manager
    (s, woken ++ more)) (s, [])

/-! ## All steps -/

/-- What each manager that has a label tells of itself. -/
def stats : List (String × Stats) :=
  s.managers.filterMap fun (label, m) => (s.state.manager? m).map fun manager =>
    (label, manager.stats)

/-- Takes one step. -/
def step (step : Step) : Session × Report :=
  let s := { s with state := { s.state with events := [] } }
  let (s, answer) := s.perStep step
  let (s, woken) := s.wakeAll
  (s, ⟨answer, s.stats, s.waiting.length, woken, s.state.events.reverse⟩)

/-- Takes all steps. -/
def run : Session → List Step → List Report
  | _, [] => []
  | s, first :: rest =>
    let (s, report) := s.step first
    report :: run s rest

end Session
end HookPool
