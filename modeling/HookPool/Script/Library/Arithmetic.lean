/-
# The library of numbers
-/
import HookPool.Script.Library.Arguments

namespace HookPool
namespace Script
namespace Library

open HookPool.Script.Action

/-- A floating-point number as a whole one, if it is in range. -/
def wholeOrFloat (x : Binary64) : Value :=
  match Number.floatToInt? x with
  | some n => .int n
  | none => .float x

/-- Rounds a number with a function on floating-point numbers. -/
def rounded (round : Binary64 → Binary64) (c : Invocation) : Action (List Value) := do
  match c.argument 1 with
  | .number (.int n) => return [.int n]
  | _ => return [wholeOrFloat (round (← c.number 1).toFloat)]

def mathFloor : Invocation → Action (List Value) := rounded Binary64.floor

def mathCeil : Invocation → Action (List Value) := rounded Binary64.ceil

def mathAbs (c : Invocation) : Action (List Value) := do
  match c.argument 1 with
  | .number (.int n) => return [.int (if n < 0 then -n else n)]
  | _ => return [.float (← c.number 1).toFloat.abs]

/-- The remainder with the sign of the dividend. -/
def mathFmod (c : Invocation) : Action (List Value) := do
  match c.argument 1, c.argument 2 with
  | .number (.int m), .number (.int n) =>
    if n = 0 then c.failArgumentText 2 "zero"
    return [.ofInt (m.toInt.tmod n.toInt)]
  | _, _ => return [.float ((← c.number 1).toFloat.remainder (← c.number 2).toFloat)]

/-- The argument to which no later one is preferred, the first of those. -/
def best (prefers : Value → Value → Action Bool) (c : Invocation) : Action (List Value) := do
  let first ← c.any 1
  let found ← (c.arguments.drop 1).foldlM (fun acc v => do
    return if ← prefers v acc then v else acc) first
  return [found]

def mathMax : Invocation → Action (List Value) := best fun v acc => less acc v none

def mathMin : Invocation → Action (List Value) := best fun v acc => less v acc none

def mathTointeger (c : Invocation) : Action (List Value) := do
  match (c.argument 1).toNumber?.bind Number.toInt? with
  | some n => return [.int n]
  | none =>
    let _ ← c.any 1
    return [.nil]

def mathType (c : Invocation) : Action (List Value) := do
  match ← c.any 1 with
  | .number (.int _) => return [.text "integer"]
  | .number (.float _) => return [.text "float"]
  | _ => return [.nil]

end Library
end Script
end HookPool
