/-
# Sizes from a JSON text

A JSON text gives sizes as an object with the members `start_count`, `max_active` and `max_idle`,
in any order and among any others, or as a list in that order; what is missing keeps its default.
A member must not be given twice.

`readMembers` walks through an object and `readElements` through a list; both collect one layer of
sizes, which `PoolConfig.ofJson` puts on top of the default.
-/
import HookPool.Config.Basic
import HookPool.Json.Value

namespace HookPool
namespace Config

open Json

/-- One of the three sizes. -/
inductive Field where
  | startCount
  | maxActive
  | maxIdle
  deriving DecidableEq, Repr

namespace Field

/-- The name of the member that holds the size. -/
def name : Field → String
  | .startCount => "start_count"
  | .maxActive => "max_active"
  | .maxIdle => "max_idle"

/-- The field of a member's name. -/
def ofName? (key : String) : Option Field :=
  [startCount, maxActive, maxIdle].find? fun field => field.name == key

/-- The field's size in a layer. -/
def get? : Field → Sizes → Option Nat
  | .startCount => Sizes.startCount
  | .maxActive => Sizes.maxActive
  | .maxIdle => Sizes.maxIdle

/-- The layer with the field's size put in. -/
def set (field : Field) (n : Nat) (sizes : Sizes) : Sizes :=
  match field with
  | .startCount => { sizes with startCount := some n }
  | .maxActive => { sizes with maxActive := some n }
  | .maxIdle => { sizes with maxIdle := some n }

end Field

/-- Reads the colon between a key and its value. -/
def readColon (cs : List Char) : Except Failure (List Char) :=
  match skipBlank cs with
  | [] => failHere .eofInObject []
  | c :: rest => if c == ':' then .ok rest else failAtNext .expectedColon (c :: rest)

theorem readColon_shorter {cs rest : List Char} (h : readColon cs = .ok rest) :
    rest.length < cs.length := by
  unfold readColon at h
  split at h
  · simp [failHere] at h
  next heq =>
    split at h
    · simp only [Except.ok.injEq] at h
      rw [← h]
      exact tail_shorter_of_skipBlank heq
    · simp [failAtNext] at h

/-- Where a repeated key is reported: after the white space that follows it, and after a brace that
would close the object. -/
def afterRepeated (cs : List Char) : List Char :=
  match skipBlank cs with
  | '\x7d' :: rest => rest
  | rest => rest

/-- Reads what follows a key and puts it into the layer. -/
def readMember (key : String) (sizes : Sizes) (cs : List Char) :
    Except Failure (Sizes × List Char) :=
  match Field.ofName? key with
  | none =>
    match readColon cs with
    | .error failure => .error failure
    | .ok rest => (skipValue rest).map (sizes, ·)
  | some field =>
    if (field.get? sizes).isSome then failHere (.duplicateField field.name) (afterRepeated cs)
    else match readColon cs with
      | .error failure => .error failure
      | .ok rest => (readSize rest).map fun (n, rest) => (field.set n sizes, rest)

theorem readMember_shorter {key : String} {sizes sizes' : Sizes} {cs rest : List Char}
    (h : readMember key sizes cs = .ok (sizes', rest)) : rest.length < cs.length := by
  unfold readMember at h
  split at h
  · split at h
    · simp at h
    next mid hc =>
      have hs := readColon_shorter hc
      cases hv : skipValue mid with
      | error => simp [hv, Except.map] at h
      | ok r =>
        simp only [hv, Except.map, Except.ok.injEq, Prod.mk.injEq] at h
        have := skipFrom_length_le hv
        rw [← h.2]
        omega
  · split at h
    · simp [failHere] at h
    · split at h
      · simp at h
      next mid hc =>
        have hs := readColon_shorter hc
        cases hv : readSize mid with
        | error => simp [hv, Except.map] at h
        | ok r =>
          simp only [hv, Except.map, Except.ok.injEq, Prod.mk.injEq] at h
          have := readSize_shorter hv
          rw [← h.2]
          omega

/-- Finds the key of the next member, or none before the closing brace.  Every member but the
first follows a comma. -/
def nextKey (first : Bool) (cs : List Char) : Except Failure (Option (List Char)) :=
  match skipBlank cs with
  | [] => failHere .eofInObject []
  | c :: rest =>
    if c == '\x7d' then .ok none
    else if first then
      if c == '"' then .ok (some rest) else failAtNext .keyMustBeString (c :: rest)
    else if c == ',' then
      match skipBlank rest with
      | [] => failHere .eofInValue []
      | d :: rest' =>
        if d == '"' then .ok (some rest')
        else if d == '\x7d' then failAtNext .trailingComma (d :: rest')
        else failAtNext .keyMustBeString (d :: rest')
    else failAtNext .expectedObjectCommaOrEnd (c :: rest)

theorem nextKey_shorter {first : Bool} {cs rest : List Char}
    (h : nextKey first cs = .ok (some rest)) : rest.length < cs.length := by
  unfold nextKey at h
  split at h
  · simp [failHere] at h
  next c tail hb =>
    have hlen := tail_shorter_of_skipBlank hb
    split at h
    · simp at h
    split at h
    · split at h
      · simp only [Except.ok.injEq, Option.some.injEq] at h
        rw [← h]
        exact hlen
      · simp [failAtNext] at h
    split at h
    · split at h
      · simp [failHere] at h
      next hb' =>
        have := tail_shorter_of_skipBlank hb'
        split at h
        · simp only [Except.ok.injEq, Option.some.injEq] at h
          rw [← h]
          omega
        split at h <;> simp [failAtNext] at h
    · simp [failAtNext] at h

/-- Reads the members of an object up to its closing brace, which stays. -/
def readMembers (first : Bool) (sizes : Sizes) (cs : List Char) :
    Except Failure (Sizes × List Char) :=
  match _hk : nextKey first cs with
  | .error failure => .error failure
  | .ok none => .ok (sizes, skipBlank cs)
  | .ok (some rest) =>
    match _hs : readString [] rest with
    | .error failure => .error failure
    | .ok (key, rest) =>
      match _hm : readMember (String.ofList key) sizes rest with
      | .error failure => .error failure
      | .ok (sizes, rest) => readMembers false sizes rest
termination_by cs.length
decreasing_by
  have := nextKey_shorter _hk
  have := readString_shorter _hs
  have := readMember_shorter _hm
  omega

/-- Whether another element of a list follows, and where it begins. -/
def nextElement (first : Bool) (cs : List Char) : Except Failure (Option (List Char)) :=
  match skipBlank cs with
  | [] => failHere .eofInList []
  | c :: rest =>
    if c == ']' then .ok none
    else if first then .ok (some (c :: rest))
    else if c == ',' then
      match skipBlank rest with
      | [] => failHere .eofInValue []
      | d :: rest' =>
        if d == ']' then failAtNext .trailingComma (d :: rest') else .ok (some (d :: rest'))
    else failAtNext .expectedListCommaOrEnd (c :: rest)

/-- Reads the elements of a list for the given fields; the closing bracket stays. -/
def readElements (first : Bool) (sizes : Sizes) (cs : List Char) :
    List Field → Except Failure (Sizes × List Char)
  | [] => .ok (sizes, cs)
  | field :: fields =>
    match nextElement first cs with
    | .error failure => .error failure
    | .ok none => .ok (sizes, cs)
    | .ok (some rest) =>
      match readSize rest with
      | .error failure => .error failure
      | .ok (n, rest) => readElements false (field.set n sizes) rest fields

/-- Reads the closing bracket of a list. -/
def endList (cs : List Char) : Except Failure (List Char) :=
  match skipBlank cs with
  | [] => failHere .eofInList []
  | c :: rest =>
    if c == ']' then .ok rest
    else if c == ',' then
      match skipBlank rest with
      | ']' :: rest' => failAtNext .trailingComma (']' :: rest')
      | rest' => failAtNext .trailingCharacters rest'
    else failAtNext .trailingCharacters (c :: rest)

/-- Reads a layer of sizes. -/
def readSizes (cs : List Char) : Except Failure (Sizes × List Char) :=
  match skipBlank cs with
  | [] => failHere .eofInValue []
  | c :: rest =>
    if c == '[' then
      match readElements true {} rest [.startCount, .maxActive, .maxIdle] with
      | .error failure => .error failure
      | .ok (sizes, rest) => (endList rest).map (sizes, ·)
    else if c == '\x7b' then
      (readMembers true {} rest).map fun (sizes, rest) => (sizes, rest.drop 1)
    else misfit "struct PoolConfig" (c :: rest)

/-- Only white space may follow the sizes. -/
def endText (cs : List Char) : Except Failure Unit :=
  match skipBlank cs with
  | [] => .ok ()
  | c :: rest => failAtNext .trailingCharacters (c :: rest)

/-- The layer of sizes that a JSON text gives. -/
def sizesOfJson (cs : List Char) : Except Failure Sizes := do
  let (sizes, rest) ← readSizes cs
  endText rest
  return sizes

end Config

/-- The sizes that a JSON text gives, with the defaults for those that it leaves out. -/
def PoolConfig.ofJson (text : String) : Except Json.Place PoolConfig :=
  match Config.sizesOfJson text.toList with
  | .ok sizes => .ok (PoolConfig.default.override sizes)
  | .error failure => .error (failure.place text.toList)

end HookPool
