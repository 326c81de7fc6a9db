/-
# Syntax trees of scripts

A variable is known by its place among the variables in scope, counted outwards from the innermost
one, so that running a script needs no names.  Names are kept where messages want them: `label?`
says how a message names the place that a value was read from.

A node that can fail keeps the line on which a message puts the failure.
-/
import HookPool.Script.Number

namespace HookPool
namespace Script

/-- A variable in scope. -/
structure Variable where
  /-- How many variables in scope were declared after this one. -/
  index : Nat
  name : String
  /-- It belongs to a function around the one that uses it. -/
  captured : Bool
  deriving DecidableEq, Repr

/-- The operations on two numbers. -/
inductive Arithmetic where
  | add | sub | mul | mod | pow | div | idiv
  | band | bor | bxor | shl | shr
  deriving DecidableEq, Repr

/-- The comparisons. -/
inductive Comparison where
  | eq | ne | lt | le | gt | ge
  deriving DecidableEq, Repr

/-- The operations on one value. -/
inductive Unary where
  | minus | complement | length | negation
  deriving DecidableEq, Repr

/-- The variable through which all others that are not local are reached. -/
def environmentName : String := "_ENV"

mutual

/-- An expression. -/
inductive Expr where
  | nil
  | boolean (b : Bool)
  | number (n : Number)
  | string (s : ByteArray)
  /-- The further arguments of the function around it. -/
  | varargs
  | function (body : FunctionBody)
  | read (v : Variable)
  | index (object key : Expr) (line : Nat)
  | call (callee : Expr) (arguments : List Expr) (line : Nat)
  /-- Calls the function that the object holds under the name, with the object as first argument;
  the first line is that of the lookup. -/
  | invoke (object : Expr) (name : ByteArray) (arguments : List Expr) (lookupLine line : Nat)
  | unary (op : Unary) (operand : Expr) (line : Nat)
  | arithmetic (op : Arithmetic) (left right : Expr) (line : Nat)
  | concat (left right : Expr) (line : Nat)
  | compare (op : Comparison) (left right : Expr) (line : Nat)
  | both (left right : Expr)
  | either (left right : Expr)
  /-- The first value of the expression alone. -/
  | single (e : Expr)
  | table (items : List Item)

/-- A part of a table under construction. -/
inductive Item where
  | positional (e : Expr)
  | keyed (key value : Expr) (line : Nat)

/-- The parameters and the statements of a function. -/
inductive FunctionBody where
  | mk (parameters : Nat) (hasVarargs : Bool) (body : Block)

/-- A statement. -/
inductive Stat where
  | expression (e : Expr)
  | assign (targets values : List Expr) (line : Nat)
  /-- Declares variables; one of them may have to be closed where its scope ends. -/
  | declare (count : Nat) (values : List Expr) (closing : Option (Nat × String)) (line : Nat)
  /-- Declares a variable that the function itself can use. -/
  | declareFunction (body : FunctionBody)
  | block (b : Block)
  | whileLoop (condition : Expr) (body : Block)
  /-- The condition sees the variables of the body. -/
  | repeatLoop (body : Block) (condition : Expr)
  | branch (condition : Expr) (yes no : Block)
  | numericFor (start limit step : Expr) (body : Block) (line : Nat)
  | genericFor (values : List Expr) (count : Nat) (body : Block) (line : Nat)
  | breakLoop
  | jump (label : String)
  /-- A place to jump to, where `scope` variables are in scope. -/
  | label (name : String) (scope : Nat)
  /-- Leaves the function; a single call may take its place. -/
  | giveBack (values : List Expr) (line : Nat)

/-- Statements in a row; `labelled` says that there are labels among them. -/
inductive Block where
  | mk (labelled : Bool) (statements : List Stat)

end

instance : Inhabited Expr := ⟨.nil⟩
instance : Inhabited Block := ⟨.mk false []⟩
instance : Inhabited FunctionBody := ⟨.mk 0 true default⟩

def Block.statements : Block → List Stat
  | .mk _ statements => statements

/-- What a name in a message stands for. -/
inductive LabelKind where
  | localVariable | upvalue | global | field | method | constant | forIterator | metamethod
  deriving DecidableEq, Repr

def LabelKind.text : LabelKind → String
  | .localVariable => "local"
  | .upvalue => "upvalue"
  | .global => "global"
  | .field => "field"
  | .method => "method"
  | .constant => "constant"
  | .forIterator => "for iterator"
  | .metamethod => "metamethod"

/-- The name under which a message mentions a value or a function. -/
structure Label where
  kind : LabelKind
  name : ByteArray

namespace Label

/-- What a message adds to the mention of a value. -/
def text (l : Label) : ByteArray :=
  (" (" ++ l.kind.text ++ " '").toUTF8 ++ l.name ++ "')".toUTF8

def ofName (kind : LabelKind) (name : String) : Label := ⟨kind, name.toUTF8⟩

/-- The function that a loop over its results calls. -/
def forIterator : Label := ofName .forIterator "for iterator"

/-- The function that handles an operation on a value. -/
def metamethod (event : String) : Label := ofName .metamethod event

end Label

/-- The largest integer that a key may be for messages to call it an index. -/
def maxIndexKey : Int := 255

/-- How messages name a key. -/
def Expr.keyName : Expr → ByteArray
  | .string s => s
  | .number (.int n) =>
    if 0 ≤ n.toInt ∧ n.toInt ≤ maxIndexKey then "integer index".toUTF8 else "?".toUTF8
  | .single e => e.keyName
  | _ => "?".toUTF8

/-- The expression stands for the variable through which globals are reached. -/
def Expr.isEnvironment : Expr → Bool
  | .read v => v.name == environmentName
  | .single e => e.isEnvironment
  | _ => false

/-- How a message names the place that the value of the expression comes from. -/
def Expr.label? : Expr → Option Label
  | .read v => some (.ofName (if v.captured then .upvalue else .localVariable) v.name)
  | .index object key _ =>
    some ⟨if object.isEnvironment then .global else .field, key.keyName⟩
  | .string s => some ⟨.constant, s⟩
  | .single e => e.label?
  | _ => none

/-- The expression may have any number of values. -/
def Expr.isMany : Expr → Bool
  | .varargs => true
  | .call .. => true
  | .invoke .. => true
  | _ => false

end Script
end HookPool
