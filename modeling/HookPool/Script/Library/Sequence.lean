/-
# The library of sequences

Functions on the values that a table has under `1`, `2`, …, up to its length.  They respect the
handlers of the table.

Sorting picks the middle of three values as a pivot and splits the rest by it, the shorter part
first; the order in which values are compared is part of what a script can see.
-/
import HookPool.Script.Library.Arguments

namespace HookPool
namespace Script
namespace Library

open HookPool.Script.Action

/-- The length of a value by its own handler, as a whole number. -/
def lengthOf (c : Invocation) (v : Value) : Action Int := do
  match (← length v none none).toNumber?.bind Number.toInt? with
  | some n => return n.toInt
  | none => c.fail "object length is not an integer"

/-- The table that is the first argument, with its length. -/
def sequence (c : Invocation) : Action (Value × Int) := do
  let place ← c.table 1
  return (.table place, ← lengthOf c (.table place))

def getAt (t : Value) (i : Int) : Action Value :=
  index t (.ofInt i) none none

def setAt (t : Value) (i : Int) (v : Value) : Action Unit :=
  setIndex t (.ofInt i) v none none

/-! ## Joining -/

/-- The text of the value at a position. -/
def textAt (c : Invocation) (t : Value) (i : Int) : Action ByteArray := do
  let v ← getAt t i
  match v.toText? with
  | some s => return s
  | none =>
    c.fail ("invalid value (" ++ v.typeName ++ ") at index " ++ toString i
      ++ " in table for 'concat'")

/-- Joins the texts at `n` positions from `i` on. -/
def joinFrom (c : Invocation) (t : Value) (separator : ByteArray) (last : Int)
    (state : Int × ByteArray) : Action ((Int × ByteArray) ⊕ ByteArray) := do
  let (i, acc) := state
  if last < i then return .inr acc
  let acc := acc ++ (← textAt c t i)
  if i = last then return .inr acc
  return .inl (i + 1, acc ++ separator)

def tableConcat (c : Invocation) : Action (List Value) := do
  let (t, size) ← sequence c
  let separator ← c.textOr 2 ByteArray.empty
  let first ← c.intOr 3 1
  let last ← c.intOr 4 size
  return [.string (← loop (joinFrom c t separator last) (first, ByteArray.empty))]

/-! ## Inserting and removing -/

/-- Moves values one position up, from the last one down to the position. -/
def moveUp (t : Value) (pos i : Int) : Action (Int ⊕ Unit) := do
  if i ≤ pos then return .inr ()
  setAt t i (← getAt t (i - 1))
  return .inl (i - 1)

def tableInsert (c : Invocation) : Action (List Value) := do
  let (t, size) ← sequence c
  let e := size + 1
  match c.count with
  | 2 =>
    setAt t e (c.argument 2)
    return []
  | 3 =>
    let pos ← c.int 2
    if pos < 1 ∨ e < pos then c.failArgumentText 2 "position out of bounds"
    loop (moveUp t pos) e
    setAt t pos (c.argument 3)
    return []
  | _ => c.fail "wrong number of arguments to 'insert'"

/-- Moves the values above a position one position down; gives the last position. -/
def moveDown (t : Value) (size i : Int) : Action (Int ⊕ Int) := do
  if size ≤ i then return .inr i
  setAt t i (← getAt t (i + 1))
  return .inl (i + 1)

def tableRemove (c : Invocation) : Action (List Value) := do
  let (t, size) ← sequence c
  let pos ← c.intOr 2 size
  if pos ≠ size ∧ (pos < 1 ∨ size + 1 < pos) then
    c.failArgumentText 2 "position out of bounds"
  let removed ← getAt t pos
  let last ← loop (moveDown t size) pos
  setAt t last .nil
  return [removed]

/-! ## Packing -/

def tablePack (c : Invocation) : Action (List Value) := do
  let t := (Table.sized c.count 1).setRow 1 c.arguments
  return [← newTable (t.set (.text "n") (.ofNat c.count))]

/-- The most results of a function. -/
def maxResults : Int := 999000

def unpackFrom (t : Value) (last : Int) (state : Int × Array Value) :
    Action ((Int × Array Value) ⊕ List Value) := do
  let (i, acc) := state
  if last < i then return .inr acc.toList
  return .inl (i + 1, acc.push (← getAt t i))

def tableUnpack (c : Invocation) : Action (List Value) := do
  let t := c.argument 1
  let first ← c.intOr 2 1
  let last ← if c.isAbsent 3 then lengthOf c t else c.int 3
  if last < first then return []
  if maxResults ≤ last - first then c.fail "too many results to unpack"
  loop (unpackFrom t last) (first, #[])

/-! ## Sorting -/

/-- The order to sort by: a function of the script, or the order of values. -/
def precedes (order : Option Value) (a b : Value) : Action Bool := do
  match order with
  | some f => return (← callForOne f [a, b] .library).isTrue
  | none => less a b none

/-- Puts two values at two positions. -/
def setBoth (t : Value) (i : Nat) (a : Value) (j : Nat) (b : Value) : Action Unit := do
  setAt t i a
  setAt t j b

def failSort {α : Type} (c : Invocation) : Action α :=
  c.fail "invalid order function for sorting"

/-- The first position above `i` whose value does not precede the pivot; it must not pass `stop`. -/
def scanUp (c : Invocation) (order : Option Value) (t pivot : Value) (stop : Nat) (i : Nat) :
    Action (Nat ⊕ (Nat × Value)) := do
  let v ← getAt t (i + 1 : Nat)
  if ← precedes order v pivot then
    if i + 1 = stop then failSort c
    return .inl (i + 1)
  return .inr (i + 1, v)

/-- The first position below `j` whose value is not preceded by the pivot; it must not get below
`i`. -/
def scanDown (c : Invocation) (order : Option Value) (t pivot : Value) (i : Nat) (j : Int) :
    Action (Int ⊕ (Int × Value)) := do
  let v ← getAt t (j - 1)
  if ← precedes order pivot v then
    if j - 1 < i then failSort c
    return .inl (j - 1)
  return .inr (j - 1, v)

/-- Splits the values between `lo` and `up` by the pivot, which is at `up - 1`; gives the pivot's
new position. -/
def partitionStep (c : Invocation) (order : Option Value) (t pivot : Value) (up : Nat)
    (bounds : Nat × Int) : Action ((Nat × Int) ⊕ Nat) := do
  let (i, a) ← loop (scanUp c order t pivot (up - 1)) bounds.1
  let (j, b) ← loop (scanDown c order t pivot i) bounds.2
  if j < i then
    setBoth t (up - 1) a i (← getAt t (up - 1 : Nat))
    return .inr i
  setBoth t i b j.toNat a
  return .inl (i, j)

/-- Sorts the values from `lo` to `up`. -/
def sortRange (c : Invocation) (order : Option Value) (t : Value) :
    Nat → Nat → Nat → Action Unit
  | 0, _, _ => return
  | fuel + 1, lo, up => do
    if up ≤ lo then return
    let first ← getAt t lo
    let last ← getAt t up
    if ← precedes order last first then setBoth t lo last up first
    if up - lo = 1 then return
    let p := (lo + up) / 2
    let middle ← getAt t p
    let first ← getAt t lo
    if ← precedes order middle first then setBoth t p first lo middle
    else
      let last ← getAt t up
      if ← precedes order last middle then setBoth t p last up middle
    if up - lo = 2 then return
    let pivot ← getAt t p
    setBoth t p (← getAt t (up - 1 : Nat)) (up - 1) pivot
    let p ← loop (partitionStep c order t pivot up) (lo, ((up - 1 : Nat) : Int))
    if p - lo < up - p then
      sortRange c order t fuel lo (p - 1)
      sortRange c order t fuel (p + 1) up
    else
      sortRange c order t fuel (p + 1) up
      sortRange c order t fuel lo (p - 1)

def tableSort (c : Invocation) : Action (List Value) := do
  let (t, size) ← sequence c
  if size ≤ 1 then return []
  if Nat.pow 2 31 - 1 ≤ size then c.failArgumentText 1 "array too big"
  let order ← if c.isAbsent 2 then pure none else some <$> c.function 2
  sortRange c order t size.toNat 1 size.toNat
  return []

end Library
end Script
end HookPool
