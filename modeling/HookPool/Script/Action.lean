/-
# What a script does

An `Action` changes the store and gives a result, raises a value, or asks to call a function: the
answer to a call, results or a raised value, is what the action goes on with.  Functions are thereby
never run inside one another; whoever carries out the actions keeps the calls that wait
(`HookPool.Script.Machine`).

Main statements: `pure_bind`, `bind_pure` and `bind_assoc`, by which actions are a monad.
-/
import HookPool.Script.Syntax
import HookPool.Script.Table

namespace HookPool
namespace Script

/-- A place in the text of a script. -/
structure Position where
  /-- The name of the script as messages show it. -/
  chunk : ByteArray
  line : Nat

/-- What a message about a place begins with. -/
def Position.text (p : Position) : ByteArray :=
  p.chunk ++ (":" ++ toString p.line ++ ": ").toUTF8

/-- Where a function is called: at a place in a script, or by the library. -/
structure Site where
  position : Option Position
  /-- How the caller names the function. -/
  callee : Option Label

/-- A call by the library. -/
def Site.library : Site := ⟨none, none⟩

/-- A function that is a value of its own. -/
inductive Closure where
  /-- A function of a script with the variables that it can see, the innermost first. -/
  | script (body : FunctionBody) (inScope : List Nat) (chunk : ByteArray)
  /-- Gives one match after the other: the next one begins at `start` or later, and is not empty if
  it begins at `lastEnd`. -/
  | finder (subject pattern : ByteArray) (start : Nat) (lastEnd : Option Nat)

instance : Inhabited Closure := ⟨.finder ByteArray.empty ByteArray.empty 0 none⟩

/-- All that a script can change. -/
structure Store where
  tables : Array Table
  functions : Array Closure
  cells : Array Value
  /-- How many streams and coroutines there are. -/
  objects : Nat
  /-- The lines that were printed, the last one first. -/
  printed : List ByteArray
  /-- The table of handlers that all texts share. -/
  textHandlers : Option Nat

def Store.empty : Store := ⟨#[], #[], #[], 0, [], none⟩

/-- What comes of an action. -/
inductive Run (α : Type) where
  | done (a : α) (s : Store)
  | raised (v : Value) (s : Store)
  /-- Asks for a call. -/
  | call (callee : Value) (arguments : List Value) (site : Site) (s : Store)
    (resume : Except Value (List Value) → Store → Run α)
  /-- Asks for the place at which the function so many calls outwards is. -/
  | locate (level : Nat) (s : Store) (resume : Option Position → Run α)
  /-- It would take more steps than there are. -/
  | endless (s : Store)

namespace Run

/-- Goes on with the result. -/
protected def bind {α β : Type} : Run α → (α → Store → Run β) → Run β
  | .done a s, f => f a s
  | .raised v s, _ => .raised v s
  | .call callee arguments site s resume, f =>
    .call callee arguments site s fun answer s => (resume answer s).bind f
  | .locate level s resume, f => .locate level s fun place => (resume place).bind f
  | .endless s, _ => .endless s

/-- Goes on with the result or with the value that was raised. -/
def attempt {α : Type} : Run α → Run (Except Value α)
  | .done a s => .done (.ok a) s
  | .raised v s => .done (.error v) s
  | .call callee arguments site s resume =>
    .call callee arguments site s fun answer s => (resume answer s).attempt
  | .locate level s resume => .locate level s fun place => (resume place).attempt
  | .endless s => .endless s

/-- The store as it is now. -/
def store {α : Type} : Run α → Store
  | .done _ s => s
  | .raised _ s => s
  | .call _ _ _ s _ => s
  | .locate _ s _ => s
  | .endless s => s

theorem bind_done {α : Type} (r : Run α) : r.bind Run.done = r := by
  induction r with
  | done => rfl
  | raised => rfl
  | call _ _ _ _ _ ih => simp [Run.bind, ih]
  | locate _ _ _ ih => simp [Run.bind, ih]
  | endless => rfl

theorem bind_assoc {α β γ : Type} (r : Run α) (f : α → Store → Run β) (g : β → Store → Run γ) :
    (r.bind f).bind g = r.bind fun a s => (f a s).bind g := by
  induction r with
  | done => rfl
  | raised => rfl
  | call _ _ _ _ _ ih => simp [Run.bind, ih]
  | locate _ _ _ ih => simp [Run.bind, ih]
  | endless => rfl

end Run

/-- Something that a script does with the store. -/
def Action (α : Type) : Type := Store → Run α

namespace Action

@[inline] protected def pure {α : Type} (a : α) : Action α := fun s => .done a s

@[inline] protected def bind {α β : Type} (m : Action α) (f : α → Action β) : Action β := fun s =>
  match m s with
  | .done a s => f a s
  | r => r.bind f

instance : Monad Action where
  pure := Action.pure
  bind := Action.bind

theorem bind_eq {α β : Type} (m : Action α) (f : α → Action β) (s : Store) :
    (m >>= f) s = (m s).bind f := by
  change Action.bind m f s = _
  unfold Action.bind
  split <;> simp_all [Run.bind]

theorem pure_bind {α β : Type} (a : α) (f : α → Action β) : (pure a >>= f) = f a := rfl

theorem bind_pure {α : Type} (m : Action α) : m >>= pure = m := by
  funext s
  rw [bind_eq]
  exact Run.bind_done (m s)

theorem bind_assoc {α β γ : Type} (m : Action α) (f : α → Action β) (g : β → Action γ) :
    (m >>= f) >>= g = m >>= fun a => f a >>= g := by
  funext s
  rw [bind_eq, bind_eq, bind_eq]
  refine (Run.bind_assoc (m s) f g).trans (congrArg (Run.bind (m s)) ?_)
  funext a s
  exact (bind_eq (f a) g s).symm

/-! ## Failing and calling -/

def raise {α : Type} (v : Value) : Action α := fun s => .raised v s

/-- Fails with a message about a place, if it is known. -/
def fail {α : Type} (place : Option Position) (message : ByteArray) : Action α :=
  let start := (place.map Position.text).getD ByteArray.empty
  raise (.string (start ++ message))

/-- Fails with a message about a place, if it is known. -/
def failText {α : Type} (place : Option Position) (message : String) : Action α :=
  fail place message.toUTF8

/-- Calls a function; a value that it raises is raised again. -/
def call (callee : Value) (arguments : List Value) (site : Site) : Action (List Value) := fun s =>
  .call callee arguments site s fun answer s =>
    match answer with
    | .ok results => .done results s
    | .error v => .raised v s

/-- Calls a function for its first result. -/
def callForOne (callee : Value) (arguments : List Value) (site : Site) : Action Value := do
  return (← call callee arguments site).headD .nil

/-- Does something and gives the value that it raises, if it raises one. -/
def attempt {α : Type} (m : Action α) : Action (Except Value α) := fun s => (m s).attempt

def locate (level : Nat) : Action (Option Position) := fun s =>
  .locate level s fun place => .done place s

def endless {α : Type} : Action α := fun s => .endless s

/-- Repeats a step until it gives a result, at most so often. -/
def repeatUpTo {α β : Type} (step : α → Action (α ⊕ β)) : Nat → α → Store → Run β
  | 0, _, s => .endless s
  | n + 1, a, s =>
    match step a s with
    | .done (.inl a) s => repeatUpTo step n a s
    | .done (.inr b) s => .done b s
    | r => r.bind fun next s =>
      match next with
      | .inl a => repeatUpTo step n a s
      | .inr b => .done b s

/-- The most rounds of a loop; no computer lives to see the end of one that takes so many. -/
def maxRounds : Nat := Nat.pow 2 62

/-- Repeats a step until it gives a result. -/
def loop {α β : Type} (step : α → Action (α ⊕ β)) (a : α) : Action β :=
  repeatUpTo step maxRounds a

/-! ## The store -/

@[inline] def getStore : Action Store := fun s => .done s s

@[inline] def modifyStore (f : Store → Store) : Action Unit := fun s => .done () (f s)

/-- A new table. -/
def newTable (t : Table) : Action Value := fun s =>
  .done (.table s.tables.size) { s with tables := s.tables.push t }

/-- The value under a key of the table at a place. -/
def getRaw (place : Nat) (k : Value) : Action Value := fun s =>
  .done ((s.tables.getD place .empty).get k) s

/-- The value under a name of the table at a place. -/
def getField (place : Nat) (field : String) : Action Value :=
  getRaw place (.text field)

def modifyTable (place : Nat) (f : Table → Table) : Action Unit := fun s =>
  .done () { s with tables := s.tables.modify place f }

/-- Reads something off the table at a place. -/
def viewTable {α : Type} (place : Nat) (f : Table → α) : Action α := fun s =>
  .done (f (s.tables.getD place .empty)) s

/-- A new function. -/
def newFunction (c : Closure) : Action Value := fun s =>
  .done (.function s.functions.size) { s with functions := s.functions.push c }

/-- A new variable with its value; its place. -/
def newVariable (v : Value) : Action Nat := fun s =>
  .done s.cells.size { s with cells := s.cells.push v }

def readVariable (place : Nat) : Action Value := fun s =>
  .done (s.cells.getD place .nil) s

def writeVariable (place : Nat) (v : Value) : Action Unit := fun s =>
  .done () { s with cells := s.cells.setIfInBounds place v }

/-- The number of a new stream or coroutine. -/
def newObject : Action Nat := fun s =>
  .done s.objects { s with objects := s.objects + 1 }

end Action
end Script
end HookPool
