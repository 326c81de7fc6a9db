/-
# Tables

A table has a row of values under the keys `1`, `2`, … and entries under all other keys, in the order
in which the keys came.  The entries have a capacity; when a new key does not fit, the row is given
the largest size, a power of two, of which it would fill more than half, and the capacity is the
least power of two that holds the other entries.

The length of a table with gaps depends on the size of the row, which is why sizes follow this rule
exactly: `length` is always a border, a key with a value after which there is none.
-/
import HookPool.Script.Value
import Std.Data.HashMap

namespace HookPool
namespace Script

/-- A table. -/
structure Table where
  /-- The values under `1`, `2`, …; some may be `nil`. -/
  row : Array Value
  /-- The other keys with their values; a key keeps its place when its value becomes `nil`. -/
  entries : Array (Value × Value)
  /-- Where a key stands among the entries. -/
  places : Std.HashMap Value Nat
  /-- How many entries fit. -/
  capacity : Nat
  /-- The table of handlers. -/
  metatable : Option Nat

namespace Table

/-- The least power of two that is not below `n`; zero for zero. -/
def powerAbove (n : Nat) : Nat :=
  if n = 0 then 0 else if n = 1 then 1 else Nat.pow 2 ((n - 1).log2 + 1)

/-- An empty table with room in its row and among its entries. -/
def sized (row entries : Nat) : Table where
  row := Array.replicate row .nil
  entries := #[]
  places := ∅
  capacity := powerAbove entries
  metatable := none

def empty : Table := sized 0 0

instance : Inhabited Table := ⟨empty⟩

/-- The position in a row of a given size that a key stands for. -/
def rowPosition? (size : Nat) : Value → Option Nat
  | .number (.int n) =>
    let k := n.toInt
    if 1 ≤ k ∧ k ≤ size then some (k.toNat - 1) else none
  | _ => none

/-- The value under a key that is in normal form. -/
def getKey (t : Table) (k : Value) : Value :=
  match rowPosition? t.row.size k with
  | some i => t.row.getD i .nil
  | none =>
    match t.places[k]? with
    | some i => (t.entries.getD i (.nil, .nil)).2
    | none => .nil

/-- The value under a key. -/
def get (t : Table) (k : Value) : Value :=
  t.getKey k.key

def getNat (t : Table) (n : Nat) : Value :=
  t.getKey (.ofNat n)

/-! ## Sizes -/

/-- How many of the numbers are below or at each power of two but above the one before it. -/
def countBySize (counts : Array Nat) (k : Nat) : Array Nat :=
  counts.modify (if k ≤ 1 then 0 else (k - 1).log2 + 1) (· + 1)

/-- The size of a row for keys counted by size: the largest power of two of which they fill more
than half, with the number of keys that go there.  `seen` keys are below `2 ^ i`. -/
def rowSize (counts : Array Nat) (total : Nat) : Nat → Nat → Nat → Nat × Nat → Nat × Nat
  | 0, _, _, best => best
  | fuel + 1, i, seen, best =>
    if total ≤ Nat.pow 2 i / 2 then best
    else
      let seen := seen + counts.getD i 0
      rowSize counts total fuel (i + 1) seen
        (if Nat.pow 2 i / 2 < seen then (Nat.pow 2 i, seen) else best)

/-- The key as a position that a row could have, counted from one. -/
def candidate? : Value → Option Nat
  | .number (.int n) => if 1 ≤ n.toInt then some n.toInt.toNat else none
  | _ => none

/-- Adds an entry under a new key; there is room for it. -/
def pushEntry (t : Table) (k v : Value) : Table :=
  { t with places := t.places.insert k t.entries.size, entries := t.entries.push (k, v) }

/-- Puts a value into the row if the key belongs there, else among the entries. -/
def place (t : Table) (k v : Value) : Table :=
  match rowPosition? t.row.size k with
  | some i => { t with row := t.row.setIfInBounds i v }
  | none => t.pushEntry k v

/-- The table with a row of a size and with room for a number of entries. -/
def resize (t : Table) (rowSize entryCount : Nat) : Table :=
  let row := (t.row.toList.take rowSize).toArray
  let start : Table := { t with
    row := row ++ Array.replicate (rowSize - row.size) .nil
    entries := #[], places := ∅, capacity := powerAbove entryCount }
  let beyond := (t.row.toList.drop rowSize).zipIdx (rowSize + 1)
  let start := beyond.foldl (fun t (v, i) => if v.isNil then t else t.place (.ofNat i) v) start
  t.entries.foldl (fun t (k, v) => if v.isNil then t else t.place k v) start

/-- Makes room for a new key. -/
def rehash (t : Table) (k : Value) : Table :=
  let counts := Array.replicate 65 0
  let (counts, inRow) := (t.row.toList.zipIdx 1).foldl (fun (counts, n) (v, i) =>
    if v.isNil then (counts, n) else (countBySize counts i, n + 1)) (counts, 0)
  let (counts, candidates, live) := t.entries.foldl (fun (counts, candidates, live) (k, v) =>
    if v.isNil then (counts, candidates, live)
    else
      match candidate? k with
      | some i => (countBySize counts i, candidates + 1, live + 1)
      | none => (counts, candidates, live + 1)) (counts, 0, 0)
  let (counts, candidates) :=
    match candidate? k with
    | some i => (countBySize counts i, candidates + 1)
    | none => (counts, candidates)
  let (size, inside) := rowSize counts (inRow + candidates) 65 0 0 (0, 0)
  t.resize size (inRow + live + 1 - inside)

/-- Puts a value under a key in normal form, which is neither `nil` nor a NaN. -/
def setKey (t : Table) (k v : Value) : Table :=
  match rowPosition? t.row.size k with
  | some i => { t with row := t.row.setIfInBounds i v }
  | none =>
    match t.places[k]? with
    | some i => { t with entries := t.entries.modify i fun e => (e.1, v) }
    | none =>
      if v.isNil then t
      else if t.entries.size < t.capacity then t.pushEntry k v
      else (t.rehash k).place k v

/-- Puts a value under a key, which is neither `nil` nor a NaN. -/
def set (t : Table) (k v : Value) : Table :=
  t.setKey k.key v

/-- Puts values in a row from a position on, which is counted from one; the row grows to hold
them. -/
def setRow (t : Table) (start : Nat) (values : List Value) : Table :=
  let last := start + values.length - 1
  let t := if t.row.size < last then t.resize last t.capacity else t
  (values.zipIdx start).foldl (fun t (v, i) => t.setKey (.ofNat i) v) t

/-! ## Length -/

/-- A border between `i`, which has a value or is zero, and `j`, which has none. -/
def borderBetween (isEmpty : Nat → Bool) : Nat → Nat → Nat → Nat
  | 0, i, _ => i
  | fuel + 1, i, j =>
    if j - i ≤ 1 then i
    else
      let m := (i + j) / 2
      if isEmpty m then borderBetween isEmpty fuel i m else borderBetween isEmpty fuel m j

/-- A border above `i`, which has a value: doubles until there is none. -/
def borderAbove (isEmpty : Nat → Bool) : Nat → Nat → Nat
  | 0, i => i
  | fuel + 1, i =>
    let j := 2 * i
    if isEmpty j then borderBetween isEmpty 64 i j else borderAbove isEmpty fuel j

/-- The length of the table: a key with a value, or zero, after which there is none. -/
def length (t : Table) : Nat :=
  let size := t.row.size
  let isEmpty (n : Nat) : Bool := (t.getNat n).isNil
  if 0 < size ∧ isEmpty size then
    if 2 ≤ size ∧ !isEmpty (size - 1) then size - 1 else borderBetween isEmpty 64 0 size
  else if t.capacity = 0 ∨ isEmpty (size + 1) then size
  else borderAbove isEmpty 62 (max size 1)

/-! ## Traversal -/

/-- The first position from `i` on at which there is a value. -/
def firstFrom? (valueAt : Nat → Option (Value × Value)) : Nat → Nat → Option (Value × Value)
  | 0, _ => none
  | fuel + 1, i =>
    match valueAt i with
    | some (k, v) => if v.isNil then firstFrom? valueAt fuel (i + 1) else some (k, v)
    | none => none

/-- The key and the value at a position of the traversal. -/
def atPosition? (t : Table) (i : Nat) : Option (Value × Value) :=
  if i < t.row.size then some (.ofNat (i + 1), t.row.getD i .nil)
  else t.entries[i - t.row.size]?

/-- The key after `k` in the traversal, with its value; before the first one comes `nil`.  Nothing
if `k` is no key of the table; nothing inside if there is no key after it. -/
def next? (t : Table) (k : Value) : Option (Option (Value × Value)) :=
  let total := t.row.size + t.entries.size
  let from' (i : Nat) := some (firstFrom? t.atPosition? (total - i) i)
  match k.key with
  | .nil => from' 0
  | k =>
    match rowPosition? t.row.size k with
    | some i => from' (i + 1)
    | none => t.places[k]?.bind fun i => from' (t.row.size + i + 1)

end Table
end Script
end HookPool
