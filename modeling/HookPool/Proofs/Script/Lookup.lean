/-
# Looking hooks up without running anything

A lookup in a table goes on in the table's handler for lookups, if it has one, and in the handler of
that one, and so forth.  A handler that is a function is run.  As long as none is
(`State.IsPassive`), a lookup reads the store and changes nothing: it finds what the first table of the
chain that has the key holds, nothing if the chain ends in a table, and fails if the chain ends in
anything else or is too long.

`Store.find?` says what such a lookup finds, and `State.entryOf?` what a script has for a hook.

Main statements: `Action.indexFrom_eq`, `State.IsPassive.passive`, `State.IsPassive.entry_eq`.
-/
import HookPool.Proofs.Script.Entries
import HookPool.Script.State

namespace HookPool
namespace Script

/-! ## What a store holds -/

namespace Store

variable {s : Store} {key v w : Value}

/-- The table of handlers of a value. -/
def handlersOf (s : Store) : Value → Option Nat
  | .table place => (s.tables.getD place .empty).metatable
  | .string _ => s.textHandlers
  | _ => none

/-- The handler of a value for an event. -/
def handler (s : Store) (v : Value) (event : String) : Value :=
  match s.handlersOf v with
  | some place => (s.tables.getD place .empty).get (.text ("__" ++ event))
  | none => .nil

/-- What a value has under a key itself. -/
def own (s : Store) (key : Value) : Value → Value
  | .table place => (s.tables.getD place .empty).get key
  | _ => .nil

/-- What a lookup finds that passes through at most so many handlers, none of which is run. -/
def find? (s : Store) (key : Value) : Nat → Value → Option Value
  | 0, _ => none
  | fuel + 1, v =>
    if (s.own key v).isNil then
      match v, s.handler v "index" with
      | .table _, .nil => some .nil
      | _, .nil => none
      | _, h => s.find? key fuel h
    else some (s.own key v)

/-- The second value is reached from the first one by going to handlers for lookups. -/
inductive Follows (s : Store) : Value → Value → Prop where
  | here {v : Value} : Follows s v v
  | next {v w : Value} (h : Follows s (s.handler v "index") w) : Follows s v w

end Store

/-! ## Actions that only read -/

namespace Action

theorem bind_of_done {α β : Type} {m : Action α} {s s' : Store} {a : α} (h : m s = .done a s')
    (f : α → Action β) : (m >>= f) s = f a s' := by
  rw [bind_eq, h]
  rfl

theorem handlersOf_eq (v : Value) (s : Store) : handlersOf v s = .done (s.handlersOf v) s := by
  cases v <;> rfl

theorem handler_eq (v : Value) (event : String) (s : Store) :
    handler v event s = .done (s.handler v event) s := by
  simp only [handler, bind, Action.bind, handlersOf_eq, Store.handler]
  cases s.handlersOf v <;> rfl

theorem shownType_eq (v : Value) (s : Store) : ∃ name, shownType v s = .done name s := by
  cases v with
  | table place =>
    simp only [shownType, bind, Action.bind, handler_eq]
    cases s.handler (.table place) "name" <;> exact ⟨_, rfl⟩
  | _ => exact ⟨_, rfl⟩

/-- A value that does not allow an operation makes it fail with a text. -/
theorem failOperand_eq {α : Type} (what : String) (v : Value) (label : Option Label)
    (place : Option Position) (s : Store) :
    ∃ message, (failOperand what v label place : Action α) s = .raised (.string message) s := by
  obtain ⟨name, hname⟩ := shownType_eq v s
  simp only [failOperand, bind, Action.bind, hname]
  exact ⟨_, rfl⟩

/-- One step of a lookup. -/
theorem indexFrom_succ (key : Value) (place : Option Position) (fuel : Nat) (v : Value)
    (label : Option Label) (s : Store) :
    indexFrom key place (fuel + 1) v label s =
      if (s.own key v).isNil then
        match v, s.handler v "index" with
        | .table _, .nil => .done .nil s
        | v, .nil => failOperand "index" v label place s
        | v, h =>
          if h.isFunction then callHandler h "index" [v, key] place s
          else indexFrom key place fuel h none s
      else .done (s.own key v) s := by
  let goOn (h : Value) : Action Value :=
    match v, h with
    | .table _, .nil => return .nil
    | _, .nil => failOperand "index" v label place
    | _, h =>
      if h.isFunction then callHandler h "index" [v, key] place
      else indexFrom key place fuel h none
  have hstep : indexFrom key place (fuel + 1) v label s =
      (if !(s.own key v).isNil then return s.own key v else handler v "index" >>= goOn) s := by
    cases v <;> rfl
  rw [hstep]
  cases (s.own key v).isNil with
  | false => rfl
  | true =>
    refine (bind_of_done (handler_eq v "index" s) goOn).trans ?_
    generalize s.handler v "index" = h
    cases v <;> cases h <;> rfl

/-- **A lookup that comes to no function reads the store**, and fails with a text if it finds
nothing. -/
theorem indexFrom_eq (key : Value) (place : Option Position) (s : Store) (fuel : Nat) :
    ∀ (v : Value) (label : Option Label), (∀ w, s.Follows v w → w.isFunction = false) →
      match s.find? key fuel v with
      | some found => indexFrom key place fuel v label s = .done found s
      | none => ∃ message, indexFrom key place fuel v label s = .raised (.string message) s := by
  induction fuel with
  | zero => exact fun v label _ => ⟨_, rfl⟩
  | succ fuel ih =>
    intro v label hpassive
    have hnext := ih (s.handler v "index") none fun w hw => hpassive w (.next hw)
    have hnot := hpassive _ (.next .here)
    simp only [indexFrom_succ, Store.find?]
    cases (s.own key v).isNil with
    | false => rfl
    | true =>
      generalize s.handler v "index" = h at hnext hnot ⊢
      cases h with
      | nil =>
        -- the chain ends here
        cases v with
        | table place' => rfl
        | _ => exact failOperand_eq "index" _ label place s
      | function place' => cases hnot
      | builtin b => cases hnot
      | _ => cases v <;> exact hnext

end Action

/-! ## Hooks -/

namespace State

variable {st : State} {hook : String} {f v : Value}

/-- No lookup in the table of hooks comes to a function that handles it. -/
def IsPassive (st : State) : Prop :=
  ∀ v, st.store.Follows (.table st.hooks) v → v.isFunction = false

/-- What a script has for a hook: nothing known if the lookup fails, `nil` if it has none. -/
def entryOf? (st : State) (hook : String) : Option Value :=
  st.store.find? (.text hook) Action.maxChain (.table st.hooks)

theorem perform_of_done {action : Action Value} {s : Store} (h : action st.store = .done v s) :
    perform action st.store = (.ok v, s) := by
  have hrun : Machine.run (do return .results [← action]) st.store = .returned [v] s := by
    rw [Machine.run, Action.bind_of_done h]
    rfl
  rw [perform, hrun]
  rfl

theorem perform_of_raised {action : Action Value} {s : Store}
    (h : action st.store = .raised v s) :
    ∃ message s', perform action st.store = (.error message, s') := by
  have hrun : Machine.run (do return .results [← action]) st.store = .raised v s := by
    rw [Machine.run, Action.bind_eq, h]
    rfl
  rw [perform, hrun]
  exact ⟨_, _, rfl⟩

/-- **Of a hook that it finds, a lookup hands out what the script has**, and leaves the store alone. -/
theorem IsPassive.get_eq (hst : st.IsPassive) (h : st.entryOf? hook = some v) :
    interpreter.get st.store st.hooks hook = (.ok v.handed, st.store) := by
  have hindex := Action.indexFrom_eq (.text hook) none st.store Action.maxChain
    (.table st.hooks) none hst
  rw [show st.store.find? _ _ _ = some v from h] at hindex
  have hdone : perform (Action.index (.table st.hooks) (.text hook) none none) st.store =
      (.ok v, st.store) := perform_of_done hindex
  simp only [interpreter, hdone]
  rfl

/-- Any other lookup fails. -/
theorem IsPassive.get_error (hst : st.IsPassive) (h : st.entryOf? hook = none) :
    ∃ message s, interpreter.get st.store st.hooks hook = (.error message, s) := by
  have hindex := Action.indexFrom_eq (.text hook) none st.store Action.maxChain
    (.table st.hooks) none hst
  rw [show st.store.find? _ _ _ = none from h] at hindex
  obtain ⟨message, hraised⟩ := hindex
  have hraise : Action.index (.table st.hooks) (.text hook) none none st.store =
      .raised _ st.store := hraised
  obtain ⟨message, s, hperform⟩ := perform_of_raised hraise
  refine ⟨message, s, ?_⟩
  simp only [interpreter, hperform]
  rfl

/-- **Where lookups come to no function, they have no side effects.** -/
theorem IsPassive.passive (hst : st.IsPassive) : interpreter.IsPassive st := by
  intro hook v s h
  cases hentry : st.entryOf? hook with
  | some found =>
    rw [hst.get_eq hentry] at h
    exact (Prod.mk.inj h).2.symm
  | none =>
    obtain ⟨message, s', hget⟩ := hst.get_error hentry
    rw [hget] at h
    cases h

/-- What a script has for a hook, as it is told outside. -/
theorem IsPassive.entry_eq (hst : st.IsPassive) (h : st.entryOf? hook = some v) :
    interpreter.entry st hook =
      if v.isNil then .ok none
      else if v.isFunction then .ok (some v) else .error (.notAFunction v.outerTypeName) := by
  rw [Interpreter.entry, hst.get_eq h]
  cases v <;> rfl

end State

/-! ## Scripts with one hook -/

/-- A script that gives a table with one function. -/
def FunctionBody.withHook (hook : String) (body : FunctionBody) : FunctionBody :=
  .mk 0 true (.mk false [.giveBack [.table [.keyed (.string hook.toUTF8) (.function body) 1]] 1])

/-- A function that gives one number back. -/
def FunctionBody.constantly (x : Number) : FunctionBody :=
  .mk 0 false (.mk false [.giveBack [.number x] 1])

/-- A table with one entry under a text. -/
def Table.single (name : String) (v : Value) : Table :=
  (Table.sized 0 1).pushEntry (.text name) v

theorem Table.get_single (name key : String) (v : Value) :
    (single name v).get (.text key) = if name = key then v else .nil := by
  simp only [single, get, getKey, Value.key, Value.text, rowPosition?, pushEntry, sized,
    Std.HashMap.getElem?_insert]
  by_cases h : name = key
  · subst h
    simp
  · simp [h, String.toByteArray_inj]

theorem modify_size_push {α : Type} (xs : Array α) (x : α) (f : α → α) :
    (xs.push x).modify xs.size f = xs.push (f x) := by
  ext i h h'
  · simp
  · have hi : i < xs.size + 1 := by simpa using h'
    rw [Array.getElem_modify, Array.getElem_push, Array.getElem_push]
    by_cases hlast : xs.size = i
    · rw [if_pos hlast, dif_neg (by omega), dif_neg (by omega)]
    · rw [if_neg hlast, dif_pos (by omega), dif_pos (by omega)]

/-- The store after a script with one hook has run, with a variable for its globals. -/
def Store.withHook (s : Store) (hook : String) (body : FunctionBody) (chunk : ByteArray)
    (globals : Value) : Store :=
  { s with
    tables := s.tables.push (.single hook (.function s.functions.size))
    functions := s.functions.push (.script body [s.cells.size] chunk)
    cells := s.cells.push globals }

theorem run_withHook (hook : String) (body : FunctionBody) (chunk : ByteArray) (globals : Value)
    (s : Store) :
    Machine.run (do
      let place ← Action.newVariable globals
      runFunction (.withHook hook body) [place] chunk []) s =
        .returned [.table s.tables.size] (s.withHook hook body chunk globals) := by
  have hset : (Table.sized 0 1).set (.text hook) (.function s.functions.size) =
      .single hook (.function s.functions.size) := by
    simp [Table.set, Table.setKey, Value.key, Value.text, Table.rowPosition?, Table.sized,
      Table.powerAbove, Value.isNil, Table.single]
  have hrow : ∀ t : Table, t.setRow 1 [] = t := fun t => by simp [Table.setRow]
  rw [Store.withHook, ← hset, Machine.run, Machine.maxSteps]
  simp [bind, Action.bind, pure, Action.pure, Action.newVariable, Action.newVariables, Action.adjusted,
    Context.extend, Context.position, runFunction, FunctionBody.withHook, runBlock,
    runAll, exec, evalList, eval, fillTable, Action.newTable, Action.newFunction, Action.setRaw,
    Action.modifyTable, Machine.drive, modify_size_push, hrow, Value.text]

namespace State

/-- A loaded script with one hook. -/
def withHook (hook : String) (body : FunctionBody) (chunk : ByteArray) : State where
  store := Library.firstStore.withHook hook body chunk (.table Library.globalsPlace)
  hooks := Library.firstStore.tables.size

variable {hook : String} {body : FunctionBody} {chunk : ByteArray}

/-- The table of a script with one hook. -/
theorem tables_withHook :
    (withHook hook body chunk).store.tables.getD (withHook hook body chunk).hooks .empty =
      .single hook (.function 0) := by
  simp only [withHook, Store.withHook]
  rw [Array.getD_eq_getD_getElem?, Array.getElem?_push_size]
  rfl

/-- The table has no handlers. -/
theorem handler_withHook (event : String) : (withHook hook body chunk).store.handler
    (.table (withHook hook body chunk).hooks) event = .nil := by
  simp only [Store.handler, Store.handlersOf, tables_withHook]
  rfl

theorem isPassive_withHook : (withHook hook body chunk).IsPassive := by
  have hnone : ∀ v w, (withHook hook body chunk).store.Follows v w →
      v = .table (withHook hook body chunk).hooks ∨ v = .nil → w.isFunction = false := by
    intro v w h
    induction h with
    | here => rintro (rfl | rfl) <;> rfl
    | @next v w h ih =>
      intro hv
      refine ih (.inr ?_)
      rcases hv with rfl | rfl
      · exact handler_withHook "index"
      · rfl
  exact fun w h => hnone _ w h (.inl rfl)

theorem entryOf?_withHook (key : String) :
    (withHook hook body chunk).entryOf? key = some (if hook = key then .function 0 else .nil) := by
  have hown : (withHook hook body chunk).store.own (.text key)
      (.table (withHook hook body chunk).hooks) = if hook = key then .function 0 else .nil := by
    simp only [Store.own, tables_withHook, Table.get_single]
  simp only [entryOf?, Action.maxChain, Store.find?, hown, handler_withHook]
  by_cases h : hook = key
  · rw [if_pos h]
    rfl
  · rw [if_neg h]
    rfl

/-- Such a script has its function for the one hook, and nothing for any other. -/
theorem entry_withHook (key : String) :
    interpreter.entry (withHook hook body chunk) key =
      .ok (if hook = key then some (.function 0) else none) := by
  rw [isPassive_withHook.entry_eq (entryOf?_withHook key)]
  split <;> rfl

/-- A function that gives one number back does nothing else. -/
theorem call_constantly {x : Number} {arguments : List Value} :
    Machine.call (.function 0) arguments (withHook hook (.constantly x) chunk).store =
      .returned [.number x] (withHook hook (.constantly x) chunk).store := by
  rfl

end State

theorem load_withHook {source : ByteArray} {name hook : String} {body : FunctionBody}
    (hnul : nulPosition? name.toUTF8 = none)
    (hcompile : compile source name.toUTF8 = .ok (.withHook hook body)) :
    load source name = ⟨[], .ok (.withHook hook body (ChunkName.short name.toUTF8))⟩ := by
  have hrun : runText source name = (.ok (.table Library.firstStore.tables.size),
      Library.firstStore.withHook hook body (ChunkName.short name.toUTF8)
        (.table Library.globalsPlace)) := by
    simp only [runText, hnul, hcompile, run_withHook]
    rfl
  simp only [load, Interpreter.load, interpreter, hrun]
  rfl

end Script
end HookPool
