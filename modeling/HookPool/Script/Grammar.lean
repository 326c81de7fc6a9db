/-
# Reading scripts

A recursive-descent reader of the tokens of a script, with one token of lookahead where a table
begins with a name.  It knows which variables are in scope, so the tree that it gives holds places
instead of names, and a variable whose value is fixed when it is declared is replaced by that value.

Statements and expressions may nest only so deep.  `atDepth` builds the reader of a level from the
reader of the level below; that is the recursion of the whole grammar, and the depth is its measure.
Rows of things (statements, operators, arguments) are bounded by the number of tokens that are left.

The line that a message gives for a failing operation is not always the line on which the operation
is written: a look-up happens when its value is needed, which is when the next token has been read
(`settle`).
-/
import HookPool.Script.Arithmetic
import HookPool.Script.Token

namespace HookPool
namespace Script

/-- Why a text is no script. -/
inductive ParseFault where
  | malformed (fault : SyntaxFault)
  /-- Statements and expressions nest too deep. -/
  | tooDeep

namespace Grammar

/-- What is known of a variable when it is declared. -/
inductive DeclaredKind where
  | plain
  /-- It cannot be assigned to. -/
  | constant
  /-- It stands for a value that is known. -/
  | literal (value : Expr)
  /-- It belongs to a loop and has no name. -/
  | hidden

/-- A variable in scope. -/
structure Declared where
  name : String
  kind : DeclaredKind

/-- The variable is there when the script runs. -/
def Declared.isStored (d : Declared) : Bool :=
  match d.kind with
  | .plain => true
  | .constant => true
  | _ => false

/-- A label in scope. -/
structure KnownLabel where
  name : String
  line : Nat

/-- A jump to a label that has not been found yet; `active` variables are in scope there. -/
structure Jump where
  name : String
  line : Nat
  active : Nat

/-- A block that is being read. -/
structure Scope where
  /-- How many variables of the function are in scope around it. -/
  outer : Nat
  isLoop : Bool
  labels : List KnownLabel
  /-- The open jumps in it, the first one first. -/
  pending : List Jump

/-- A function that is being read. -/
structure FunctionScope where
  /-- The variables in scope, the innermost first. -/
  active : List Declared
  /-- How many more have been declared, but are not in scope yet. -/
  announced : Nat
  hasVarargs : Bool
  /-- The line on which it begins; zero for the whole script. -/
  line : Nat
  /-- How many variables of functions around it are in scope when the script runs. -/
  inherited : Nat
  /-- The places of those of them that it uses. -/
  captured : List Nat
  /-- The blocks, the innermost first. -/
  scopes : List Scope

/-- What has been read so far, and what is left. -/
structure State where
  current : Lexeme
  rest : List Lexeme
  /-- The length of `rest`. -/
  remaining : Nat
  ending : Except SyntaxFault Lexeme
  /-- The line of the last token that was taken. -/
  lastLine : Nat
  function : FunctionScope
  /-- The functions around it, the innermost first. -/
  around : List FunctionScope

abbrev Parse := StateT State (Except ParseFault)

/-! ## Faults -/

def raise {α : Type} (message : List Char) : Parse α := fun s =>
  .error (.malformed ⟨s.current.line, message⟩)

/-- Fails with the current token in the message. -/
def fail {α : Type} (message : String) : Parse α := fun s =>
  raise (nearText message s.current.quoted) s

/-- Fails without a token in the message. -/
def failPlain {α : Type} (message : String) : Parse α :=
  raise message.toList

def failExpected {α : Type} (what : String) : Parse α :=
  fail (what ++ " expected")

/-! ## Tokens -/

/-- The lexeme after the current one. -/
def following (s : State) : Except SyntaxFault Lexeme :=
  match s.rest with
  | next :: _ => .ok next
  | [] => s.ending

/-- Takes the current token. -/
def advance : Parse Unit := fun s =>
  match following s with
  | .error fault => .error (.malformed fault)
  | .ok next => .ok ((), { s with
      current := next, rest := s.rest.drop 1, remaining := s.remaining - 1,
      lastLine := s.current.line })

def token : Parse Token := do return (← get).current.token

/-- The line of the current token. -/
def line : Parse Nat := do return (← get).current.line

/-- The token after the current one. -/
def lookahead : Parse Token := fun s =>
  match following s with
  | .error fault => .error (.malformed fault)
  | .ok next => .ok (next.token, s)

def isAt (symbol : String) : Parse Bool := do
  return (← token) == .symbol symbol

/-- Takes the symbol if it is there. -/
def accept (symbol : String) : Parse Bool := do
  if ← isAt symbol then advance; return true
  return false

/-- A symbol between quotes. -/
def shown (symbol : String) : String := "'" ++ symbol ++ "'"

def require (symbol : String) : Parse Unit := do
  unless ← accept symbol do failExpected (shown symbol)

/-- Takes the symbol that closes what another one opened on a line. -/
def close (symbol opener : String) (openLine : Nat) : Parse Unit := do
  unless ← accept symbol do
    if openLine = (← line) then failExpected (shown symbol)
    else
      fail (shown symbol ++ " expected (to close " ++ shown opener ++ " at line "
        ++ toString openLine ++ ")")

def name : Parse String := do
  match ← token with
  | .name n => advance; return n
  | _ => failExpected "<name>"

/-- Repeats a step until it gives a result; every step but the last takes a token. -/
def iterate {α β : Type} (step : α → Parse (α ⊕ β)) : Nat → α → Parse β
  | 0, _ => throw .tooDeep
  | fuel + 1, a => do
    match ← step a with
    | .inl a => iterate step fuel a
    | .inr b => return b

/-- Repeats a step as long as there are tokens to take. -/
def repeated {α β : Type} (step : α → Parse (α ⊕ β)) (a : α) : Parse β := do
  iterate step ((← get).remaining + 2) a

/-! ## Limits -/

/-- The most variables that a function may declare in scopes that overlap. -/
def maxLocals : Nat := 200

/-- The most variables of functions around it that a function may use. -/
def maxCaptured : Nat := 255

/-- The most statements and expressions that may nest. -/
def maxDepth : Nat := 199

def failLimit {α : Type} (what : String) (limit line : Nat) : Parse α :=
  let place := if line = 0 then "main function" else "function at line " ++ toString line
  fail ("too many " ++ what ++ " (limit is " ++ toString limit ++ ") in " ++ place)

/-! ## Variables -/

def modifyFunction (f : FunctionScope → FunctionScope) : Parse Unit :=
  modify fun s => { s with function := f s.function }

/-- Counts a variable that will come into scope. -/
def announce : Parse Unit := do
  let f := (← get).function
  if maxLocals < f.active.length + f.announced + 1 then failLimit "local variables" maxLocals f.line
  modifyFunction fun f => { f with announced := f.announced + 1 }

/-- Brings announced variables into scope, the first one first. -/
def activate (declared : List Declared) : Parse Unit :=
  modifyFunction fun f => { f with
    active := declared.reverse ++ f.active, announced := f.announced - declared.length }

/-- How many of the variables are there when the script runs. -/
def storedCount (declared : List Declared) : Nat :=
  (declared.filter Declared.isStored).length

/-- How many variables are in scope in a function when the script runs. -/
def FunctionScope.depth (f : FunctionScope) : Nat :=
  f.inherited + storedCount f.active

/-- Looks a name up among variables; what comes with it are the variables declared before it. -/
def findDeclared? (name : String) : List Declared → Option (Declared × List Declared)
  | [] => none
  | d :: ds =>
    match d.kind with
    | .hidden => findDeclared? name ds
    | _ => if d.name = name then some (d, ds) else findDeclared? name ds

/-- The place of the variable through which globals are reached. -/
def environmentSlot : Nat := 0

/-- A name resolved: a variable with its place counted from the outermost, or a known value. -/
inductive Resolved where
  | stored (slot : Nat) (kind : DeclaredKind)
  | literal (value : Expr)

/-- Looks a name up in functions from the inside out; what comes with it is how many of them are
left before the variable's own. -/
def resolve? (name : String) : List FunctionScope → Option (Resolved × Nat)
  | [] => none
  | f :: fs =>
    match findDeclared? name f.active with
    | some (d, before) =>
      match d.kind with
      | .literal value => some (.literal value, 0)
      | kind => some (.stored (f.inherited + storedCount before) kind, 0)
    | none => (resolve? name fs).map fun (r, n) => (r, n + 1)

/-- Notes in the functions, from the inside out, that they use a place around them; fails with the
line of the outermost function that uses too many. -/
def capture (slot : Nat) : List FunctionScope → Except Nat (List FunctionScope)
  | [] => .ok []
  | f :: fs => do
    let fs ← capture slot fs
    if f.captured.contains slot then return f :: fs
    if maxCaptured < f.captured.length + 1 then throw f.line
    return { f with captured := slot :: f.captured } :: fs

/-- Notes that the innermost `count` functions use a place around them. -/
def captureIn (count slot : Nat) : Parse Unit := do
  let s ← get
  let functions := s.function :: s.around
  match capture slot (functions.take count) with
  | .error line => failLimit "upvalues" maxCaptured line
  | .ok inner =>
    match inner ++ functions.drop count with
    | [] => return
    | f :: fs => set { s with function := f, around := fs }

/-- What an expression is as the target of an assignment. -/
inductive Target where
  | assignable
  | readOnly (name : String)
  | other

/-- Reads a variable at a place. -/
def readSlot (name : String) (slot : Nat) (captured : Bool) : Parse Expr := do
  return .read ⟨(← get).function.depth - 1 - slot, name, captured⟩

/-- The variable through which globals are reached. -/
def environment : Parse Expr := do
  let s ← get
  match resolve? environmentName (s.function :: s.around) with
  | some (.literal value, _) => return value
  | some (.stored slot _, level) =>
    captureIn level slot
    readSlot environmentName slot (level ≠ 0)
  | none =>
    captureIn (s.around.length + 1) environmentSlot
    readSlot environmentName environmentSlot true

/-- The variable of a name. -/
def variableNamed (name : String) : Parse (Expr × Target) := do
  let s ← get
  match resolve? name (s.function :: s.around) with
  | some (.literal value, _) => return (value, .readOnly name)
  | some (.stored slot kind, level) =>
    captureIn level slot
    let target := match kind with
      | .plain => Target.assignable
      | _ => .readOnly name
    return (← readSlot name slot (level ≠ 0), target)
  | none =>
    if name = environmentName then return (← environment, .assignable)
    return (.index (← environment) (.string name.toUTF8) 0, .assignable)

/-! ## Blocks and labels -/

def modifyScope (f : Scope → Scope) : Parse Unit :=
  modifyFunction fun g =>
    match g.scopes with
    | [] => g
    | scope :: scopes => { g with scopes := f scope :: scopes }

def enterScope (isLoop : Bool) : Parse Unit :=
  modifyFunction fun f => { f with scopes := ⟨f.active.length, isLoop, [], []⟩ :: f.scopes }

/-- The name by which loops are left. -/
def breakName : String := "break"

def addJump (name : String) (line : Nat) : Parse Unit := do
  let active := (← get).function.active.length
  modifyScope fun scope => { scope with pending := scope.pending ++ [⟨name, line, active⟩] }

/-- Places a label, where `active` variables count as in scope, and closes the open jumps of the
block that lead to it. -/
def placeLabel (name : String) (active : Nat) : Parse Unit := do
  let f := (← get).function
  match f.scopes with
  | [] => return
  | scope :: _ =>
    match scope.pending.find? fun jump => jump.name = name ∧ jump.active < active with
    | some jump =>
      let entered := f.active.reverse.drop jump.active
      let entered := (entered.head?.map Declared.name).getD ""
      failPlain ("<goto " ++ name ++ "> at line " ++ toString jump.line
        ++ " jumps into the scope of local '" ++ entered ++ "'")
    | none =>
      modifyScope fun scope => { scope with pending := scope.pending.filter (·.name ≠ name) }

/-- Fails for a jump that leads nowhere. -/
def failJump {α : Type} (jump : Jump) : Parse α :=
  if jump.name = breakName then
    failPlain ("break outside loop at line " ++ toString jump.line)
  else
    failPlain ("no visible label '" ++ jump.name ++ "' for <goto> at line " ++ toString jump.line)

/-- Leaves a block: its variables and labels go, and its open jumps pass to the block around it.
True if there were labels in it. -/
def leaveScope : Parse Bool := do
  let f := (← get).function
  match f.scopes with
  | [] => return false
  | scope :: scopes =>
    modifyFunction fun f => { f with active := f.active.drop (f.active.length - scope.outer) }
    if scope.isLoop then placeLabel breakName scope.outer
    let pending := ((← get).function.scopes.head?.map Scope.pending).getD []
    modifyFunction fun f => { f with scopes := scopes }
    match scopes with
    | [] =>
      match pending with
      | [] => pure ()
      | jump :: _ => failJump jump
    | _ :: _ =>
      modifyScope fun around => { around with
        pending := around.pending ++ pending.map fun jump => { jump with active := scope.outer } }
    return !scope.labels.isEmpty

/-- The current token ends a block; `until` does so only on request. -/
def atBlockEnd (withUntil : Bool) : Parse Bool := do
  match ← token with
  | .eof => return true
  | .symbol s => return s = "else" ∨ s = "elseif" ∨ s = "end" ∨ (withUntil ∧ s = "until")
  | _ => return false

/-! ## Lines of look-ups -/

/-- The value of the expression is needed now: a look-up gets the line of the last token. -/
def settle (e : Expr) : Parse Expr := do
  match e with
  | .index object key 0 => return .index object key (← get).lastLine
  | e => return e

/-! ## Expressions -/

/-- The readers of the level below. -/
structure Nested where
  statement : Parse (List Stat)
  /-- An expression of operators that bind more tightly than the limit. -/
  operators : Nat → Parse Expr

def Nested.expression (n : Nested) : Parse Expr := n.operators 0

/-- Expressions with commas between them; the last one is not settled. -/
def expressions (n : Nested) : Parse (List Expr) := do
  let first ← n.expression
  repeated (fun (acc, e) => do
    if ← accept "," then
      let e ← settle e
      return .inl (e :: acc, ← n.expression)
    else return .inr (e :: acc).reverse) (([] : List Expr), first)

/-- Settles the last one of the expressions. -/
def settleLast : List Expr → Parse (List Expr)
  | [] => return []
  | [e] => return [← settle e]
  | e :: es => return e :: (← settleLast es)

/-- An expression in brackets, as a key. -/
def bracketed (n : Nested) : Parse Expr := do
  advance
  let key ← settle (← n.expression)
  require "]"
  return key

/-- A part of a table, not settled if it is positional. -/
def tableItem (n : Nested) : Parse Item := do
  let keyed (key : Expr) : Parse Item := do
    require "="
    let value ← settle (← n.expression)
    return .keyed key value (← get).lastLine
  match ← token with
  | .name field =>
    if (← lookahead) == .symbol "=" then
      advance
      keyed (.string field.toUTF8)
    else return .positional (← n.expression)
  | .symbol "[" => keyed (← bracketed n)
  | _ => return .positional (← n.expression)

def settleItem : Item → Parse Item
  | .positional e => return .positional (← settle e)
  | item => return item

/-- A table. -/
def tableConstructor (n : Nested) : Parse Expr := do
  let openLine ← line
  require "\x7b"
  let items ← repeated (fun (acc : List Item) => do
    if ← isAt "\x7d" then return .inr acc
    let acc ← match acc with
      | item :: items => do pure ((← settleItem item) :: items)
      | [] => pure []
    let item ← tableItem n
    if (← accept ",") || (← accept ";") then return .inl (item :: acc)
    return .inr (item :: acc)) []
  close "\x7d" "\x7b" openLine
  match items with
  | item :: items => return .table ((← settleItem item) :: items).reverse
  | [] => return .table []

/-- The statements of a block up to its end. -/
def statements (n : Nested) : Parse (List Stat) :=
  repeated (fun (acc : List (List Stat)) => do
    if ← atBlockEnd true then return .inr acc.reverse.flatten
    if ← isAt "return" then
      let last ← n.statement
      return .inr (last :: acc).reverse.flatten
    return .inl ((← n.statement) :: acc)) []

/-- A block with variables of its own. -/
def block (n : Nested) : Parse Block := do
  enterScope false
  let body ← statements n
  return .mk (← leaveScope) body

/-- The parameters of a function: how many they are, and whether there may be more. -/
def parameters : Parse (Nat × Bool) := do
  if ← isAt ")" then return (0, false)
  let (names, more) ← repeated (fun (acc : List String) => do
    match ← token with
    | .name _ =>
      let parameter ← name
      announce
      if ← accept "," then return .inl (parameter :: acc)
      return .inr (parameter :: acc, false)
    | .symbol "..." =>
      advance
      return .inr (acc, true)
    | _ => fail "<name> or '...' expected") []
  activate (names.reverse.map (⟨·, .plain⟩))
  modifyFunction fun f => { f with hasVarargs := more }
  return (names.length, more)

/-- The parameters and the statements of a function that begins on a line. -/
def functionBody (n : Nested) (isMethod : Bool) (startLine : Nat) : Parse FunctionBody := do
  modify fun s => { s with
    function := ⟨[], 0, false, startLine, s.function.depth, [], []⟩
    around := s.function :: s.around }
  enterScope false
  require "("
  if isMethod then
    announce
    activate [⟨"self", .plain⟩]
  let (count, more) ← parameters
  require ")"
  let body ← statements n
  close "end" "function" startLine
  let labelled ← leaveScope
  modify fun s =>
    match s.around with
    | f :: fs => { s with function := f, around := fs }
    | [] => s
  return .mk (if isMethod then count + 1 else count) more (.mk labelled body)

/-- The arguments of a call. -/
def arguments (n : Nested) : Parse (List Expr) := do
  match ← token with
  | .symbol "(" =>
    let openLine ← line
    advance
    if ← accept ")" then return []
    let es ← expressions n
    close ")" "(" openLine
    settleLast es
  | .symbol "\x7b" => return [← tableConstructor n]
  | .string s =>
    advance
    return [.string s]
  | _ => fail "function arguments expected"

/-- A variable, or an expression in parentheses. -/
def primary (n : Nested) : Parse (Expr × Target) := do
  match ← token with
  | .name x =>
    advance
    variableNamed x
  | .symbol "(" =>
    let openLine ← line
    advance
    let e ← n.expression
    close ")" "(" openLine
    return (.single (← settle e), .other)
  | _ => fail "unexpected symbol"

/-- A variable or an expression in parentheses with look-ups and calls after it. -/
def suffixed (n : Nested) : Parse (Expr × Target) := do
  let first ← primary n
  repeated (fun (e, target) => do
    match ← token with
    | .symbol "." =>
      let object ← settle e
      advance
      let field ← name
      return .inl (.index object (.string field.toUTF8) 0, .assignable)
    | .symbol "[" =>
      let object ← settle e
      let key ← bracketed n
      return .inl (.index object key 0, .assignable)
    | .symbol ":" =>
      advance
      let method ← name
      let object ← settle e
      let lookupLine := (← get).lastLine
      let callLine ← line
      let args ← arguments n
      return .inl (.invoke object method.toUTF8 args lookupLine callLine, .other)
    | .symbol "(" | .symbol "\x7b" | .string _ =>
      let callee ← settle e
      let callLine ← line
      let args ← arguments n
      return .inl (.call callee args callLine, .other)
    | _ => return .inr (e, target)) first

/-- An expression without operators. -/
def simple (n : Nested) : Parse Expr := do
  match ← token with
  | .number x => advance; return .number x
  | .string s => advance; return .string s
  | .symbol "nil" => advance; return .nil
  | .symbol "true" => advance; return .boolean true
  | .symbol "false" => advance; return .boolean false
  | .symbol "..." =>
    unless (← get).function.hasVarargs do fail "cannot use '...' outside a vararg function"
    advance
    return .varargs
  | .symbol "\x7b" => tableConstructor n
  | .symbol "function" =>
    advance
    return .function (← functionBody n false (← line))
  | _ => return (← suffixed n).1

/-! ## Operators -/

/-- How tightly operators on one operand bind. -/
def unaryBinding : Nat := 12

def unaryOf? : Token → Option Unary
  | .symbol "not" => some .negation
  | .symbol "-" => some .minus
  | .symbol "~" => some .complement
  | .symbol "#" => some .length
  | _ => none

/-- A numeral, also in parentheses. -/
def numeral? : Expr → Option Number
  | .number x => some x
  | .single e => numeral? e
  | _ => none

/-- The truth of a value that is known. -/
def truth? : Expr → Option Bool
  | .nil => some false
  | .boolean b => some b
  | .number _ => some true
  | .string _ => some true
  | .single e => truth? e
  | _ => none

/-- An operation on one operand; on a known value it is carried out. -/
def unaryExpr (op : Unary) (e : Expr) (line : Nat) : Expr :=
  match op, numeral? e with
  | .minus, some x =>
    match Arithmetic.fold? .sub (.int 0) x, x with
    | some _, .int n => .number (.int (-n))
    | _, .float y => if y.isNaN || y.equals (Binary64.zero false) then .unary op e line
        else .number (.float y.neg)
    | _, _ => .unary op e line
  | .complement, some x =>
    match x.toInt? with
    | some n => .number (.int (~~~n))
    | none => .unary op e line
  | .negation, _ =>
    match truth? e with
    | some b => .boolean !b
    | none => .unary op e line
  | _, _ => .unary op e line

/-- The operation is a concatenation; then a chain fails on the line of its last operator. -/
def concatLine? : Expr → Option Nat
  | .concat _ _ line => some line
  | .single e => concatLine? e
  | _ => none

/-- What an operator on two operands makes of them. -/
inductive Join where
  | arithmetic (op : Arithmetic)
  | compare (op : Comparison)
  | concat
  | both
  | either

/-- An operator between two operands with how tightly it binds to its sides. -/
structure Operator where
  left : Nat
  right : Nat
  join : Join

def operatorOf? : Token → Option Operator
  | .symbol s =>
    match s with
    | "+" => some ⟨10, 10, .arithmetic .add⟩
    | "-" => some ⟨10, 10, .arithmetic .sub⟩
    | "*" => some ⟨11, 11, .arithmetic .mul⟩
    | "%" => some ⟨11, 11, .arithmetic .mod⟩
    | "^" => some ⟨14, 13, .arithmetic .pow⟩
    | "/" => some ⟨11, 11, .arithmetic .div⟩
    | "//" => some ⟨11, 11, .arithmetic .idiv⟩
    | "&" => some ⟨6, 6, .arithmetic .band⟩
    | "|" => some ⟨4, 4, .arithmetic .bor⟩
    | "~" => some ⟨5, 5, .arithmetic .bxor⟩
    | "<<" => some ⟨7, 7, .arithmetic .shl⟩
    | ">>" => some ⟨7, 7, .arithmetic .shr⟩
    | ".." => some ⟨9, 8, .concat⟩
    | "==" => some ⟨3, 3, .compare .eq⟩
    | "~=" => some ⟨3, 3, .compare .ne⟩
    | "<" => some ⟨3, 3, .compare .lt⟩
    | "<=" => some ⟨3, 3, .compare .le⟩
    | ">" => some ⟨3, 3, .compare .gt⟩
    | ">=" => some ⟨3, 3, .compare .ge⟩
    | "and" => some ⟨2, 2, .both⟩
    | "or" => some ⟨1, 1, .either⟩
    | _ => none
  | _ => none

/-- An operation on two operands, written on a line; arithmetic on numerals is carried out.  A
comparison fails on the line where its second operand ends. -/
def Join.build (join : Join) (left right : Expr) (line lastLine : Nat) : Expr :=
  match join with
  | .arithmetic op =>
    match numeral? left, numeral? right with
    | some a, some b =>
      match op.fold? a b with
      | some x => .number x
      | none => .arithmetic op left right line
    | _, _ => .arithmetic op left right line
  | .compare op => .compare op left right lastLine
  | .concat => .concat left right ((concatLine? right).getD line)
  | .both => .both left right
  | .either => .either left right

/-- Operators that bind more tightly than the limit, after an operand. -/
def operatorsAfter (n : Nested) (limit : Nat) (first : Expr) : Parse Expr :=
  repeated (fun left => do
    match operatorOf? (← token) with
    | some op =>
      if op.left ≤ limit then return .inr left
      let opLine ← line
      advance
      let left ← settle left
      let right ← n.operators op.right
      let right ← settle right
      return .inl (op.join.build left right opLine (← get).lastLine)
    | none => return .inr left) first

/-- An expression of operators that bind more tightly than the limit. -/
def operators (n : Nested) (limit : Nat) : Parse Expr := do
  match unaryOf? (← token) with
  | some op =>
    let opLine ← line
    advance
    let operand ← settle (← n.operators unaryBinding)
    operatorsAfter n limit (unaryExpr op operand opLine)
  | none => operatorsAfter n limit (← simple n)

/-! ## Statements -/

/-- A condition whose value is needed right after it. -/
def condition (n : Nested) : Parse Expr := do
  settle (← n.expression)

/-- What follows `if` or `elseif`. -/
def branches (n : Nested) (startLine : Nat) : Nat → Parse Stat
  | 0 => throw .tooDeep
  | fuel + 1 => do
    advance
    let e ← n.expression
    require "then"
    let e ← settle e
    let yes ← block n
    if ← isAt "elseif" then
      return .branch e yes (.mk false [← branches n startLine fuel])
    let no ← if ← accept "else" then block n else pure default
    close "end" "if" startLine
    return .branch e yes no

def whileStatement (n : Nested) (startLine : Nat) : Parse Stat := do
  advance
  let e ← condition n
  enterScope true
  require "do"
  let body ← block n
  close "end" "while" startLine
  let _ ← leaveScope
  return .whileLoop e body

def repeatStatement (n : Nested) (startLine : Nat) : Parse Stat := do
  enterScope true
  enterScope false
  advance
  let body ← statements n
  close "until" "repeat" startLine
  let e ← condition n
  let labelled ← leaveScope
  let _ ← leaveScope
  return .repeatLoop (.mk labelled body) e

/-- The body of a loop with variables of its own. -/
def loopBody (n : Nested) (names : List String) : Parse Block := do
  enterScope false
  activate (names.map (⟨·, .plain⟩))
  let body ← block n
  let _ ← leaveScope
  return body

/-- Variables of a loop without a name. -/
def hiddenVariables (count : Nat) : List Declared :=
  List.replicate count ⟨"(for state)", .hidden⟩

def announceAll : Nat → Parse Unit
  | 0 => return
  | n + 1 => do
    announce
    announceAll n

def forStatement (n : Nested) (startLine : Nat) : Parse Stat := do
  enterScope true
  advance
  let first ← name
  let loop ← match ← token with
    | .symbol "=" => do
      announceAll 4
      advance
      let start ← condition n
      require ","
      let limit ← condition n
      let step ← if ← accept "," then condition n else pure (.number (.int 1))
      activate (hiddenVariables 3)
      require "do"
      let prepLine := (← get).lastLine
      pure (Stat.numericFor start limit step (← loopBody n [first]) prepLine)
    | .symbol "," | .symbol "in" => do
      announceAll 5
      let names ← repeated (fun (acc : List String) => do
        if ← accept "," then
          let x ← name
          announce
          return .inl (x :: acc)
        return .inr acc.reverse) [first]
      require "in"
      let callLine ← line
      let values ← settleLast (← expressions n)
      activate (hiddenVariables 4)
      require "do"
      pure (Stat.genericFor values names.length (← loopBody n names) callLine)
    | _ => fail "'=' or 'in' expected"
  close "end" "for" startLine
  let _ ← leaveScope
  return loop

def checkAssignable (target : Target) : Parse Unit := do
  match target with
  | .readOnly x => failPlain ("attempt to assign to const variable '" ++ x ++ "'")
  | _ => return

def functionStatement (n : Nested) (startLine : Nat) : Parse Stat := do
  advance
  let x ← name
  let first ← variableNamed x
  let (e, target) ← repeated (fun (e, target) => do
    if ← isAt "." then
      let object ← settle e
      advance
      let field ← name
      return .inl (.index object (.string field.toUTF8) 0, .assignable)
    return .inr (e, target)) first
  let isMethod ← isAt ":"
  let (e, target) ← if isMethod then do
      let object ← settle e
      advance
      let field ← name
      pure (.index object (.string field.toUTF8) 0, Target.assignable)
    else pure (e, target)
  let body ← functionBody n isMethod startLine
  checkAssignable target
  return .assign [e] [.function body] startLine

def localFunction (n : Nested) : Parse Stat := do
  let x ← name
  announce
  activate [⟨x, .plain⟩]
  return .declareFunction (← functionBody n false (← line))

/-- What is said about a variable that is being declared. -/
inductive Attribute where
  | none
  | constant
  | closing

def declaredAttribute : Parse Attribute := do
  if ← accept "<" then
    let x ← name
    require ">"
    match x with
    | "const" => return .constant
    | "close" => return .closing
    | _ => failPlain ("unknown attribute '" ++ x ++ "'")
  return .none

/-- The value of the expression is known. -/
def isLiteral (e : Expr) : Bool :=
  (truth? e).isSome

/-- The variables of a declaration; at most one has to be closed. -/
def declaredNames : Parse (List (String × Attribute)) := do
  repeated (fun (acc : List (String × Attribute)) => do
    let x ← name
    announce
    let a ← declaredAttribute
    match a with
    | .closing =>
      if acc.any fun (_, b) => match b with | .closing => true | _ => false then
        failPlain "multiple to-be-closed variables in local list"
    | _ => pure ()
    if ← accept "," then return .inl ((x, a) :: acc)
    return .inr ((x, a) :: acc).reverse) []

def declaredOf (x : String × Attribute) : Declared :=
  match x.2 with
  | .none => ⟨x.1, .plain⟩
  | _ => ⟨x.1, .constant⟩

/-- The variable that has to be closed, with its place in the row. -/
def closingOf (declared : List (String × Attribute)) : Option (Nat × String) :=
  (declared.zipIdx.find? fun (v, _) => match v.2 with | .closing => true | _ => false).map
    fun (v, i) => (i, v.1)

def localStatement (n : Nested) : Parse Stat := do
  let declared ← declaredNames
  let values ← if ← accept "=" then expressions n else pure []
  let literal? :=
    if declared.length = values.length then
      match declared.getLast?, values.getLast? with
      | some (x, .constant), some e => if isLiteral e then some (x, e) else none
      | _, _ => none
    else none
  match literal? with
  | some (x, e) =>
    activate (declared.dropLast.map declaredOf ++ [⟨x, .literal e⟩])
    return .declare (declared.length - 1) values (closingOf declared) (← get).lastLine
  | none =>
    let values ← settleLast values
    activate (declared.map declaredOf)
    return .declare declared.length values (closingOf declared) (← get).lastLine

def labelStatement (n : Nested) (startLine : Nat) : Parse (List Stat) := do
  advance
  let x ← name
  require "::"
  let more ← repeated (fun (acc : List (List Stat)) => do
    if (← isAt ";") || (← isAt "::") then return .inl ((← n.statement) :: acc)
    return .inr acc.reverse.flatten) []
  let f := (← get).function
  match (f.scopes.flatMap Scope.labels).find? fun known => known.name = x with
  | some known =>
    failPlain ("label '" ++ x ++ "' already defined on line " ++ toString known.line)
  | none => pure ()
  modifyScope fun scope => { scope with labels := ⟨x, startLine⟩ :: scope.labels }
  let outer := (f.scopes.head?.map Scope.outer).getD 0
  let isLast ← atBlockEnd false
  let active := if isLast then outer else f.active.length
  placeLabel x active
  let scope := f.inherited + storedCount (f.active.drop (f.active.length - active))
  return .label x scope :: more

def gotoStatement : Parse Stat := do
  advance
  let jumpLine ← line
  let x ← name
  let known := (← get).function.scopes.flatMap Scope.labels
  unless known.any fun l => l.name = x do addJump x jumpLine
  return .jump x

def returnStatement (n : Nested) : Parse Stat := do
  advance
  let values ←
    if (← atBlockEnd true) || (← isAt ";") then pure []
    else settleLast (← expressions n)
  let lastLine := (← get).lastLine
  let _ ← accept ";"
  return .giveBack values lastLine

/-- The targets after the first one, and the values of an assignment. -/
def assignment (n : Nested) (targets : List (Expr × Target)) : Parse Stat := do
  let targets ← repeated (fun targets => do
    match targets with
    | [] => return .inr []
    | (_, target) :: _ =>
      match target with
      | .other => fail "syntax error"
      | target =>
        checkAssignable target
        if ← accept "," then return .inl ((← suffixed n) :: targets)
        return .inr targets) targets
  require "="
  let values ← settleLast (← expressions n)
  return .assign (targets.reverse.map Prod.fst) values (← get).lastLine

def expressionStatement (n : Nested) : Parse Stat := do
  let (e, target) ← suffixed n
  if (← isAt "=") || (← isAt ",") then assignment n [(e, target)]
  else
    match e with
    | .call .. => return .expression e
    | .invoke .. => return .expression e
    | _ => fail "syntax error"

def statement (n : Nested) : Parse (List Stat) := do
  let startLine ← line
  match ← token with
  | .symbol ";" =>
    advance
    return []
  | .symbol "if" => return [← branches n startLine ((← get).remaining + 1)]
  | .symbol "while" => return [← whileStatement n startLine]
  | .symbol "do" =>
    advance
    let body ← block n
    close "end" "do" startLine
    return [.block body]
  | .symbol "for" => return [← forStatement n startLine]
  | .symbol "repeat" => return [← repeatStatement n startLine]
  | .symbol "function" => return [← functionStatement n startLine]
  | .symbol "local" =>
    advance
    if ← accept "function" then return [← localFunction n]
    return [← localStatement n]
  | .symbol "::" => labelStatement n startLine
  | .symbol "return" => return [← returnStatement n]
  | .symbol "break" =>
    advance
    addJump breakName startLine
    return [.breakLoop]
  | .symbol "goto" => return [← gotoStatement]
  | _ => return [← expressionStatement n]

/-- The readers of statements and expressions that nest at most so deep. -/
def atDepth : Nat → Nested
  | 0 => ⟨throw .tooDeep, fun _ => throw .tooDeep⟩
  | depth + 1 => ⟨statement (atDepth depth), operators (atDepth depth)⟩

/-- A whole script. -/
def script (n : Nested) : Parse Block := do
  enterScope false
  let body ← statements n
  unless (← token) == .eof do failExpected "<eof>"
  return .mk (← leaveScope) body

end Grammar

/-- Reads a script: a function that takes any arguments. -/
def FunctionBody.ofChars (cs : List Char) : Except ParseFault FunctionBody :=
  let lexed := tokenize cs
  let main : Grammar.FunctionScope := ⟨[], 0, true, 0, 1, [], []⟩
  let first : Except SyntaxFault (Lexeme × List Lexeme) :=
    match lexed.lexemes, lexed.ending with
    | lexeme :: rest, _ => .ok (lexeme, rest)
    | [], .ok last => .ok (last, [])
    | [], .error fault => .error fault
  match first with
  | .error fault => .error (.malformed fault)
  | .ok (current, rest) =>
    let state : Grammar.State := ⟨current, rest, rest.length, lexed.ending, 1, main, []⟩
    match Grammar.script (Grammar.atDepth Grammar.maxDepth) state with
    | .ok (body, _) => .ok (.mk 0 true body)
    | .error fault => .error fault

end Script
end HookPool
