/-
# Running the parts of a script

What an expression and a statement do, by recursion on their structure.  A loop repeats the action
of its body; a call asks for the called function and so leaves the structure.

A variable of the function itself is read when an operation needs it, not when it is come across:
if the other operand changes the variable, the operation sees the change.  `isLate` says for which
expressions this is so.
-/
import HookPool.Script.Operation

namespace HookPool
namespace Script

/-- What the parts of a function see. -/
structure Context where
  /-- The places of the variables in scope, the innermost first. -/
  inScope : List Nat
  /-- The arguments beyond the parameters. -/
  varargs : List Value
  /-- The name of the script as messages show it. -/
  chunk : ByteArray

namespace Context

def position (ctx : Context) (line : Nat) : Option Position := some ⟨ctx.chunk, line⟩

/-- The place of a variable. -/
def placeOf (ctx : Context) (v : Variable) : Nat := ctx.inScope.getD v.index 0

/-- The context with new variables, the first one outermost. -/
def extend (ctx : Context) (places : List Nat) : Context :=
  { ctx with inScope := places.reverse ++ ctx.inScope }

end Context

/-- How a statement ends. -/
inductive Flow where
  /-- What follows is next. -/
  | next
  /-- The loop around it ends. -/
  | leave
  /-- A label is next; the variables are those in scope at the jump. -/
  | jump (label : String) (inScope : List Nat)
  /-- The function ends. -/
  | results (values : List Value)
  /-- The function ends, and a call takes its place. -/
  | tailCall (callee : Value) (arguments : List Value) (site : Site)

/-- The value is read when it is needed. -/
def Expr.isLate : Expr → Bool
  | .read v => !v.captured
  | .single e => e.isLate
  | _ => false

/-- A target of an assignment with what has been evaluated of it. -/
inductive Spot where
  | cell (place : Nat)
  | entry (object key : Action Value) (label : Option Label)

namespace Action

/-- Exactly `n` values: the first ones, filled up with `nil`. -/
def adjusted (n : Nat) (values : List Value) : List Value :=
  (values ++ List.replicate (n - values.length) Value.nil).take n

/-- New variables with values. -/
def newVariables : List Value → Action (List Nat)
  | [] => return []
  | v :: vs => do
    let place ← newVariable v
    return place :: (← newVariables vs)

/-- Assigns to a target. -/
def store (place : Option Position) (spot : Spot) (v : Value) : Action Unit := do
  match spot with
  | .cell p => writeVariable p v
  | .entry object key label => setIndex (← object) (← key) v label place

/-- Assigns to targets, the last one first. -/
def storeAll (place : Option Position) : List Spot → List Value → Action Unit
  | spot :: spots, v :: vs => do
    storeAll place spots vs
    store place spot v
  | _, _ => return

/-! ## Scopes that close a value -/

/-- Fails unless the value can be closed; `nil` and `false` need not be. -/
def checkClosable (v : Value) (name : String) (place : Option Position) : Action Unit := do
  if v.isTrue then
    if (← handler v "close").isNil then
      failText place ("variable '" ++ name ++ "' got a non-closable value")

/-- Closes a value; an error that ends its scope is handed on. -/
def closeValue (v : Value) (error : Value) (place : Option Position) : Action Unit := do
  if v.isTrue then
    let _ ← call (← handler v "close") [v, error] ⟨place, some (.metamethod "close")⟩

/-- Does something and closes a value afterwards, whatever comes of it.  A call in place of the
function has to happen before. -/
def closing (v : Value) (name : String) (place : Option Position) (body : Action Flow) :
    Action Flow := do
  checkClosable v name place
  let finished : Action Flow := do
    match ← body with
    | .tailCall callee arguments site => return .results (← call callee arguments site)
    | flow => return flow
  match ← attempt finished with
  | .ok flow =>
    closeValue v .nil place
    return flow
  | .error e =>
    closeValue v e place
    raise e

/-! ## Loops -/

/-- What the flow of a body means for its loop. -/
def ofBody {α : Type} (again : α) : Flow → α ⊕ Flow
  | .next => .inl again
  | .leave => .inr .next
  | flow => .inr flow

def failFor {α : Type} (what : String) (v : Value) (place : Option Position) : Action α := do
  let type ← shownType v
  fail place (("bad 'for' " ++ what ++ " (number expected, got ").toUTF8 ++ type ++ ")".toUTF8)

/-- The last whole number that a loop may reach, or nothing if it runs not even once. -/
def wholeLimit (start step : Int) (limit : Number) : Option Int :=
  let bound : Option Int :=
    match limit with
    | .int n => some n.toInt
    | .float x =>
      let whole := if step < 0 then Number.ceilToInt? x else Number.floorToInt? x
      match whole with
      | some n => some n.toInt
      | none =>
        if Binary64.lt (Binary64.zero false) x then
          if step < 0 then none else some Number.greatest
        else if 0 < step then none else some Number.least
  bound.bind fun n => if (if 0 < step then n < start else start < n) then none else some n

/-- A loop over whole numbers: the next one, and how many come after it. -/
def countWhole (body : Value → Action Flow) (step : Int) (state : Int × Nat) :
    Action ((Int × Nat) ⊕ Flow) := do
  let (i, more) := state
  let flow ← body (.ofInt i)
  if more = 0 then
    match flow with
    | .leave => return .inr .next
    | flow => return .inr flow
  return ofBody (i + step, more - 1) flow

/-- A loop over floating-point numbers. -/
def countFloat (body : Value → Action Flow) (limit step : Binary64) (x : Binary64) :
    Action (Binary64 ⊕ Flow) := do
  let inside := if Binary64.lt (Binary64.zero false) step then x.le limit else limit.le x
  if !inside then return .inr .next
  return ofBody (x.add step) (← body (.float x))

/-- A loop that counts from a start to a limit by a step. -/
def numericFor (start limit step : Value) (body : Value → Action Flow) (place : Option Position) :
    Action Flow := do
  let zeroStep : Action Flow := failText place "'for' step is zero"
  match start, step with
  | .number (.int first), .number (.int by_) =>
    if by_ = 0 then zeroStep
    else
      match limit.toNumber? with
      | none => failFor "limit" limit place
      | some bound =>
        match wholeLimit first.toInt by_.toInt bound with
        | none => return .next
        | some last =>
          let rounds := (last - first.toInt).natAbs / by_.toInt.natAbs
          loop (countWhole body by_.toInt) (first.toInt, rounds)
  | _, _ =>
    match limit.toNumber?, step.toNumber?, start.toNumber? with
    | none, _, _ => failFor "limit" limit place
    | _, none, _ => failFor "step" step place
    | _, _, none => failFor "initial value" start place
    | some bound, some by_, some first =>
      if by_.toFloat.equals (Binary64.zero false) then zeroStep
      else loop (countFloat body bound.toFloat by_.toFloat) first.toFloat

/-- A loop over what a function gives when it is called again and again with a state and the first
result before. -/
def genericFor (f state : Value) (body : List Value → Action Flow) (site : Site)
    (control : Value) : Action (Value ⊕ Flow) := do
  let results ← call f [state, control] site
  match results.headD .nil with
  | .nil => return .inr .next
  | next => return ofBody next (← body results)

end Action

open HookPool.Script.Action

/-- Reads the value of a variable by its place. -/
def Context.read (ctx : Context) (v : Variable) : Action Value :=
  readVariable (ctx.placeOf v)

mutual

/-- The value of an expression, the first one if there are more. -/
def eval (ctx : Context) : Expr → Action Value
  | .nil => pure .nil
  | .boolean b => pure (.boolean b)
  | .number x => pure (.number x)
  | .string s => pure (.string s)
  | .varargs => pure (ctx.varargs.headD .nil)
  | .function body => newFunction (.script body ctx.inScope ctx.chunk)
  | .read v => ctx.read v
  | .index object key line => do
    let early ← eval ctx object
    let k ← eval ctx key
    let o ← if object.isLate then eval ctx object else pure early
    index o k object.label? (ctx.position line)
  | .call callee arguments line => do
    let f ← eval ctx callee
    let vs ← evalList ctx arguments
    callForOne f vs ⟨ctx.position line, callee.label?⟩
  | .invoke object name arguments lookupLine line => do
    let o ← eval ctx object
    let f ← index o (.string name) object.label? (ctx.position lookupLine)
    let vs ← evalList ctx arguments
    callForOne f (o :: vs) ⟨ctx.position line, some ⟨.method, name⟩⟩
  | .unary op operand line => do
    let a ← eval ctx operand
    match op with
    | .minus => minus a operand.label? (ctx.position line)
    | .complement => complement a operand.label? (ctx.position line)
    | .length => length a operand.label? (ctx.position line)
    | .negation => return .boolean !a.isTrue
  | .arithmetic op left right line => do
    let early ← eval ctx left
    let b ← eval ctx right
    let a ← if left.isLate then eval ctx left else pure early
    arithmetic op a b left.label? right.label? (ctx.position line)
  | .concat left right line => do
    let a ← eval ctx left
    let b ← eval ctx right
    concat a b left.label? right.label? (ctx.position line)
  | .compare op left right line => do
    let early ← eval ctx left
    let b ← eval ctx right
    let a ← if left.isLate then eval ctx left else pure early
    let place := ctx.position line
    match op with
    | .eq => return .boolean (← equals a b place)
    | .ne => return .boolean !(← equals a b place)
    | .lt => return .boolean (← less a b place)
    | .le => return .boolean (← lessOrEqual a b place)
    | .gt => return .boolean (← less b a place)
    | .ge => return .boolean (← lessOrEqual b a place)
  | .both left right => do
    let a ← eval ctx left
    if a.isTrue then eval ctx right else return a
  | .either left right => do
    let a ← eval ctx left
    if a.isTrue then return a else eval ctx right
  | .single e => eval ctx e
  | .table items => do
    let positional := (items.filter fun item => match item with
      | .positional e => !e.isMany
      | .keyed .. => false).length
    let keyed := (items.filter fun item => match item with
      | .keyed .. => true
      | .positional _ => false).length
    match ← newTable (.sized positional keyed) with
    | .table t =>
      fillTable ctx t 1 [] items
      return .table t
    | v => return v

/-- The values of expressions: of the last one all, of the others the first. -/
def evalList (ctx : Context) : List Expr → Action (List Value)
  | [] => pure []
  | [.varargs] => pure ctx.varargs
  | [.call callee arguments line] => do
    let f ← eval ctx callee
    let vs ← evalList ctx arguments
    call f vs ⟨ctx.position line, callee.label?⟩
  | [.invoke object name arguments lookupLine line] => do
    let o ← eval ctx object
    let f ← index o (.string name) object.label? (ctx.position lookupLine)
    let vs ← evalList ctx arguments
    call f (o :: vs) ⟨ctx.position line, some ⟨.method, name⟩⟩
  | e :: es => do
    let v ← eval ctx e
    return v :: (← evalList ctx es)

/-- Fills a new table; `pending` are values, the last one first, that are put into the table fifty
at a time, from the position `start` on. -/
def fillTable (ctx : Context) (t start : Nat) (pending : List Value) : List Item → Action Unit
  | [] => modifyTable t (·.setRow start pending.reverse)
  | [.positional .varargs] =>
    modifyTable t (·.setRow start (pending.reverse ++ ctx.varargs))
  | [.positional (.call callee arguments line)] => do
    let f ← eval ctx callee
    let vs ← evalList ctx arguments
    let results ← call f vs ⟨ctx.position line, callee.label?⟩
    modifyTable t (·.setRow start (pending.reverse ++ results))
  | [.positional (.invoke object name arguments lookupLine line)] => do
    let o ← eval ctx object
    let f ← index o (.string name) object.label? (ctx.position lookupLine)
    let vs ← evalList ctx arguments
    let results ← call f (o :: vs) ⟨ctx.position line, some ⟨.method, name⟩⟩
    modifyTable t (·.setRow start (pending.reverse ++ results))
  | .positional e :: items => do
    let v ← eval ctx e
    if pending.length + 1 = 50 then
      modifyTable t (·.setRow start (v :: pending).reverse)
      fillTable ctx t (start + 50) [] items
    else fillTable ctx t start (v :: pending) items
  | .keyed key value line :: items => do
    let k ← eval ctx key
    let v ← eval ctx value
    setRaw t k v (ctx.position line)
    fillTable ctx t start pending items

/-- What is assigned to, with its parts evaluated as far as they have to be before the values;
`assigned` are the variables that the statement assigns to. -/
def evalSpots (ctx : Context) (assigned : List Nat) : List Expr → Action (List Spot)
  | [] => pure []
  | .read v :: es => do
    return .cell (ctx.placeOf v) :: (← evalSpots ctx assigned es)
  | .index object key _ :: es => do
    let o ← eval ctx object
    let k ← eval ctx key
    let late (e : Expr) : Bool :=
      match e with
      | .read v => !v.captured && !assigned.contains (ctx.placeOf v)
      | _ => false
    let spot := Spot.entry
      (if late object then eval ctx object else pure o)
      (if late key then eval ctx key else pure k) object.label?
    return spot :: (← evalSpots ctx assigned es)
  | _ :: es => evalSpots ctx assigned es

/-- Runs a statement that declares no variables. -/
def exec (ctx : Context) : Stat → Action Flow
  | .expression e => do
    let _ ← eval ctx e
    return .next
  | .assign targets values line => do
    let assigned := targets.filterMap fun e => match e with
      | .read v => some (ctx.placeOf v)
      | _ => none
    let spots ← evalSpots ctx assigned targets
    let vs ← evalList ctx values
    storeAll (ctx.position line) spots (adjusted spots.length vs)
    return .next
  | .declare .. => return .next
  | .declareFunction _ => return .next
  | .block b => runBlock ctx (fun _ => return .next) b
  | .whileLoop condition body =>
    loop (fun _ => do
      if (← eval ctx condition).isTrue then
        return ofBody () (← runBlock ctx (fun _ => return .next) body)
      else return .inr .next) ()
  | .repeatLoop body condition =>
    loop (fun _ => do
      let finish (inner : Context) : Action Flow := do
        return if (← eval inner condition).isTrue then .leave else .next
      return ofBody () (← runBlock ctx finish body)) ()
  | .branch condition yes no => do
    if (← eval ctx condition).isTrue then runBlock ctx (fun _ => return .next) yes
    else runBlock ctx (fun _ => return .next) no
  | .numericFor start limit step body line => do
    let first ← eval ctx start
    let last ← eval ctx limit
    let by_ ← eval ctx step
    let round (v : Value) : Action Flow := do
      runBlock (ctx.extend [← newVariable v]) (fun _ => return .next) body
    numericFor first last by_ round (ctx.position line)
  | .genericFor values count body line => do
    let vs := adjusted 4 (← evalList ctx values)
    let round (results : List Value) : Action Flow := do
      runBlock (ctx.extend (← newVariables (adjusted count results))) (fun _ => return .next) body
    let rounds := loop
      (genericFor (vs.getD 0 .nil) (vs.getD 1 .nil) round ⟨ctx.position line, some .forIterator⟩)
      (vs.getD 2 .nil)
    let toClose := vs.getD 3 .nil
    if toClose.isTrue then closing toClose "(for state)" (ctx.position line) rounds else rounds
  | .breakLoop => return .leave
  | .jump label => return .jump label ctx.inScope
  | .label .. => return .next
  | .giveBack [.call callee arguments line] _ => do
    let f ← eval ctx callee
    let vs ← evalList ctx arguments
    return .tailCall f vs ⟨ctx.position line, callee.label?⟩
  | .giveBack [.invoke object name arguments lookupLine line] _ => do
    let o ← eval ctx object
    let f ← index o (.string name) object.label? (ctx.position lookupLine)
    let vs ← evalList ctx arguments
    return .tailCall f (o :: vs) ⟨ctx.position line, some ⟨.method, name⟩⟩
  | .giveBack values _ => do
    return .results (← evalList ctx values)

/-- Runs statements in a row; at their end comes `finish`, which sees their variables. -/
def runAll (ctx : Context) (finish : Context → Action Flow) : List Stat → Action Flow
  | [] => finish ctx
  | .declare count values toClose line :: rest => do
    let vs ← evalList ctx values
    let places ← newVariables (adjusted count vs)
    let inner := ctx.extend places
    match toClose with
    | none => runAll inner finish rest
    | some (i, name) =>
      let v ← readVariable (places.getD i 0)
      closing v name (ctx.position line) (runAll inner finish rest)
  | .declareFunction body :: rest => do
    let place ← newVariable .nil
    let inner := ctx.extend [place]
    writeVariable place (← newFunction (.script body inner.inScope ctx.chunk))
    runAll inner finish rest
  | stat :: rest => do
    match ← exec ctx stat with
    | .next => runAll ctx finish rest
    | flow => return flow

/-- Runs the statements after a label; the variables are those in scope at the jump, of which the
label keeps the outermost ones. -/
def runFrom (ctx : Context) (finish : Context → Action Flow) (target : String) :
    List Stat → Action Flow
  | [] => return .jump target ctx.inScope
  | .label name scope :: rest =>
    if name = target then
      runAll { ctx with inScope := ctx.inScope.drop (ctx.inScope.length - scope) } finish rest
    else runFrom ctx finish target rest
  | _ :: rest => runFrom ctx finish target rest

/-- Runs a block; jumps to its labels stay inside. -/
def runBlock (ctx : Context) (finish : Context → Action Flow) : Block → Action Flow
  | .mk false stats => runAll ctx finish stats
  | .mk true stats => do
    let isHere (target : String) : Bool := stats.any fun stat => match stat with
      | .label name _ => name = target
      | _ => false
    loop (fun (flow : Flow) => do
      match flow with
      | .jump target inScope =>
        if isHere target then
          return .inl (← runFrom { ctx with inScope := inScope } finish target stats)
        else return .inr flow
      | flow => return .inr flow) (← runAll ctx finish stats)

end

/-- How a function ends. -/
inductive Ending where
  | results (values : List Value)
  /-- A function of a script is called in its place. -/
  | tailCall (place : Nat) (arguments : List Value)

/-- Runs a function of a script with arguments. -/
def runFunction (body : FunctionBody) (inScope : List Nat) (chunk : ByteArray)
    (arguments : List Value) : Action Ending := do
  let .mk parameters hasVarargs block := body
  let places ← newVariables (adjusted parameters arguments)
  let varargs := if hasVarargs then arguments.drop parameters else []
  let ctx : Context := (Context.mk inScope varargs chunk).extend places
  match ← runBlock ctx (fun _ => return .next) block with
  | .results values => return .results values
  | .tailCall callee arguments site =>
    match callee with
    | .function place => return .tailCall place arguments
    | callee => return .results (← call callee arguments site)
  | _ => return .results []

end Script
end HookPool
