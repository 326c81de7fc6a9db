/-
# Values in JSON

A value that nobody asked for is passed over, however deeply it is nested: `skipValue` keeps the
lists and objects that are still open on a stack of its own.  A value that is not what was asked
for is named by its kind (`misfit`), after it has been read as far as its kind needs.

Main statement: `skipFrom_length_le`, a value is never longer than the text.
-/
import HookPool.Json.Number

namespace HookPool
namespace Json

/-- Reads the rest of a word. -/
def readIdent : List Char → List Char → Except Failure (List Char)
  | [], rest => .ok rest
  | _ :: _, [] => failHere .eofInValue []
  | e :: es, c :: rest =>
    if c == e then readIdent es rest else failAtNext .expectedIdent (c :: rest)

theorem readIdent_length_le {word cs rest : List Char} (h : readIdent word cs = .ok rest) :
    rest.length ≤ cs.length := by
  fun_induction readIdent word cs with
  | case1 cs =>
    simp only [Except.ok.injEq] at h
    simp [h]
  | case2 => simp [failHere] at h
  | case3 e es c tail _ ih =>
    have := ih h
    simp only [List.length_cons]
    omega
  | case4 => simp [failAtNext] at h

/-! ## Passing over a value -/

/-- A list or an object that is still open. -/
inductive Frame where
  | list
  | object
  deriving DecidableEq

/-- What has to come next: a value, a member of an object, or what may follow a value. -/
inductive Stage where
  | value
  | member
  | after
  deriving DecidableEq

def Frame.close : Frame → Char
  | .list => ']'
  | .object => '\x7d'

/-- What follows a comma, or an opening bracket that is not closed at once. -/
def Frame.stage : Frame → Stage
  | .list => .value
  | .object => .member

def Frame.unfinished : Frame → Problem
  | .list => .eofInList
  | .object => .eofInObject

def Frame.uncontinued : Frame → Problem
  | .list => .expectedListCommaOrEnd
  | .object => .expectedObjectCommaOrEnd

/-- Passes over a value that opens no list or object and begins with `c`. -/
def skipScalar (c : Char) (rest : List Char) : Except Failure (List Char) :=
  if c == 'n' then readIdent ['u', 'l', 'l'] rest
  else if c == 't' then readIdent ['r', 'u', 'e'] rest
  else if c == 'f' then readIdent ['a', 'l', 's', 'e'] rest
  else if c == '-' then skipNumber rest
  else if c.isDigit then skipNumber (c :: rest)
  else if c == '"' then skipString rest
  else failAtNext .expectedValue (c :: rest)

theorem skipScalar_shorter {c : Char} {cs rest : List Char} (h : skipScalar c cs = .ok rest) :
    rest.length < (c :: cs).length := by
  unfold skipScalar at h
  simp only [List.length_cons]
  split at h
  · have := readIdent_length_le h; omega
  split at h
  · have := readIdent_length_le h; omega
  split at h
  · have := readIdent_length_le h; omega
  split at h
  · have := skipNumber_shorter h; omega
  split at h
  · have := skipNumber_shorter h
    simp only [List.length_cons] at this
    omega
  split at h
  · have := skipString_shorter h; omega
  · simp [failAtNext] at h

/-- The frame that a character opens. -/
def opening? (c : Char) : Option Frame :=
  if c == '[' then some .list else if c == '\x7b' then some .object else none

theorem tail_shorter_of_skipBlank {cs rest : List Char} {c : Char}
    (h : skipBlank cs = c :: rest) : rest.length < cs.length := by
  have := length_dropWhile_le isBlank cs
  rw [show cs.dropWhile isBlank = c :: rest from h, List.length_cons] at this
  omega

/-- Passes over the rest of a value, whose open lists and objects are `open_`, innermost first. -/
def skipFrom (stage : Stage) (open_ : List Frame) (cs : List Char) : Except Failure (List Char) :=
  match stage, open_ with
  | .after, [] => .ok cs
  | .after, frame :: outer =>
    match _h : skipBlank cs with
    | [] => failHere frame.unfinished []
    | c :: rest =>
      if c == ',' then skipFrom frame.stage (frame :: outer) rest
      else if c == frame.close then skipFrom .after outer rest
      else failAtNext frame.uncontinued (c :: rest)
  | .member, open_ =>
    match _h : skipBlank cs with
    | [] => failHere .eofInObject []
    | c :: rest =>
      if c != '"' then failAtNext .keyMustBeString (c :: rest)
      else match _hs : skipString rest with
        | .error failure => .error failure
        | .ok rest =>
          match _hc : skipBlank rest with
          | [] => failHere .eofInObject []
          | c :: rest =>
            if c == ':' then skipFrom .value open_ rest else failAtNext .expectedColon (c :: rest)
  | .value, open_ =>
    match _h : skipBlank cs with
    | [] => failHere .eofInValue []
    | c :: rest =>
      match opening? c with
      | some frame =>
        match _ho : skipBlank rest with
        | [] => failHere frame.unfinished []
        | d :: rest' =>
          if d == frame.close then skipFrom .after open_ rest'
          else skipFrom frame.stage (frame :: open_) (d :: rest')
      | none =>
        match _hv : skipScalar c rest with
        | .error failure => .error failure
        | .ok rest => skipFrom .after open_ rest
termination_by cs.length
decreasing_by
  · exact tail_shorter_of_skipBlank _h
  · exact tail_shorter_of_skipBlank _h
  · have := tail_shorter_of_skipBlank _h
    have := skipString_shorter _hs
    have := tail_shorter_of_skipBlank _hc
    omega
  · have := tail_shorter_of_skipBlank _h
    have := tail_shorter_of_skipBlank _ho
    omega
  · have := tail_shorter_of_skipBlank _h
    have := length_dropWhile_le isBlank rest
    rw [show rest.dropWhile isBlank = d :: rest' from _ho] at this
    omega
  · have := length_dropWhile_le isBlank cs
    rw [show cs.dropWhile isBlank = c :: _ from _h] at this
    have := skipScalar_shorter _hv
    omega

/-- Passes over a value. -/
def skipValue (cs : List Char) : Except Failure (List Char) :=
  skipFrom .value [] cs

theorem skipFrom_length_le {stage : Stage} {open_ : List Frame} {cs rest : List Char}
    (h : skipFrom stage open_ cs = .ok rest) : rest.length ≤ cs.length := by
  fun_induction skipFrom stage open_ cs <;>
    try (simp only [failHere, failAtNext, reduceCtorEq] at h)
  case case1 =>
    simp only [Except.ok.injEq] at h
    simp [h]
  case case3 hb _ ih =>
    have := ih h
    have := tail_shorter_of_skipBlank hb
    omega
  case case4 hb _ _ ih =>
    have := ih h
    have := tail_shorter_of_skipBlank hb
    omega
  case case10 hb _ _ hs _ _ hc _ ih =>
    have := ih h
    have := tail_shorter_of_skipBlank hb
    have := skipString_shorter hs
    have := tail_shorter_of_skipBlank hc
    omega
  case case14 hb _ _ _ _ hb' _ ih =>
    have := ih h
    have := tail_shorter_of_skipBlank hb
    have := tail_shorter_of_skipBlank hb'
    omega
  case case15 hb _ _ d rest' hb' _ ih =>
    have := ih h
    have := tail_shorter_of_skipBlank hb
    have := tail_shorter_of_skipBlank hb'
    simp only [List.length_cons] at *
    omega
  case case17 hb _ _ hs ih =>
    have := ih h
    have := tail_shorter_of_skipBlank hb
    have := skipScalar_shorter hs
    simp only [List.length_cons] at *
    omega

/-! ## Values of the wrong kind -/

/-- Fails on a value that is not the wanted one, naming its kind. -/
def misfit {α : Type} (wanted : String) : List Char → Except Failure α
  | [] => failHere .eofInValue []
  | c :: rest =>
    let report (found : Found) (rest : List Char) : Except Failure α :=
      failHere (.wrongType found wanted) rest
    let number (positive : Bool) (rest : List Char) : Except Failure α :=
      match readNumber positive rest with
      | .error failure => .error failure
      | .ok (number, rest) => report number.found rest
    let word (letters : List Char) (found : Found) : Except Failure α :=
      match readIdent letters rest with
      | .error failure => .error failure
      | .ok rest => report found rest
    if c == 'n' then word ['u', 'l', 'l'] .null
    else if c == 't' then word ['r', 'u', 'e'] (.boolean true)
    else if c == 'f' then word ['a', 'l', 's', 'e'] (.boolean false)
    else if c == '-' then number false rest
    else if c.isDigit then number true (c :: rest)
    else if c == '"' then
      match readString [] rest with
      | .error failure => .error failure
      | .ok (text, rest) => report (.text (String.ofList text)) rest
    else if c == '[' then report .sequence (c :: rest)
    else if c == '\x7b' then report .map (c :: rest)
    else failAtNext .expectedValue (c :: rest)

theorem misfit_ne_ok {α : Type} (wanted : String) (cs : List Char) (x : α) :
    misfit wanted cs ≠ .ok x := by
  unfold misfit
  repeat' split
  all_goals simp only [failHere, failAtNext]
  all_goals repeat' split
  all_goals simp

/-- The name of a size in messages. -/
def sizeName : String := "usize"

/-- Reads a whole number of 64 bits without sign. -/
def readSize (cs : List Char) : Except Failure (Nat × List Char) :=
  match skipBlank cs with
  | [] => failHere .eofInValue []
  | c :: rest =>
    if c == '-' || c.isDigit then
      match readNumber (c != '-') (if c == '-' then rest else c :: rest) with
      | .error failure => .error failure
      | .ok (.whole (.ofNat n), rest) => .ok (n, rest)
      | .ok (.whole n, rest) => failHere (.wrongValue (.integer n) sizeName) rest
      | .ok (.floating x, rest) => failHere (.wrongType (.floating x) sizeName) rest
    else misfit sizeName (c :: rest)

theorem readSize_shorter {cs rest : List Char} {n : Nat} (h : readSize cs = .ok (n, rest)) :
    rest.length < cs.length := by
  unfold readSize at h
  split at h
  · simp [failHere] at h
  next c tail heq =>
    have hlen := length_dropWhile_le isBlank cs
    rw [show cs.dropWhile isBlank = c :: tail from heq, List.length_cons] at hlen
    split at h
    · split at h
      · simp at h
      next hr =>
        have := readNumber_shorter hr
        simp only [Except.ok.injEq, Prod.mk.injEq] at h
        rw [← h.2]
        split at this
        · omega
        · simp only [List.length_cons] at this
          omega
      · simp [failHere] at h
      · simp [failHere] at h
    · exact absurd h (misfit_ne_ok _ _ _)

end Json
end HookPool
