/-
# Texts of scripts and their names

A text is compiled under a name, of which messages show a short form: a name after `=` or `@` as it
is, cut at its end or at its start; any other one as the first line of a quoted text.

A text that begins with an escape byte is taken for a compiled script, which is never accepted.
-/
import HookPool.Script.Grammar
import HookPool.Script.Value

namespace HookPool
namespace Script

namespace ChunkName

/-- The most bytes of a short form. -/
def maxShown : Nat := 59

/-- The most bytes of a line in a quoted text. -/
def maxLine : Nat := 45

/-- What stands for the part that is left out. -/
def ellipsis : ByteArray := "...".toUTF8

/-- The short form of a name. -/
def short (name : ByteArray) : ByteArray :=
  let rest := name.extract 1 name.size
  match name[0]?.map UInt8.toNat with
  | some 61 => rest.extract 0 maxShown
  | some 64 =>
    if rest.size ≤ maxShown then rest
    else ellipsis ++ rest.extract (rest.size - (maxShown - ellipsis.size)) rest.size
  | _ =>
    let line : ByteArray := ⟨name.data.takeWhile (· != 10)⟩
    let shown :=
      if line.size = name.size ∧ name.size < maxLine then name
      else line.extract 0 maxLine ++ ellipsis
    "[string \"".toUTF8 ++ shown ++ "\"]".toUTF8

/-- The name without the mark at its start. -/
def unmarked (name : ByteArray) : ByteArray :=
  match name[0]?.map UInt8.toNat with
  | some 61 | some 64 => name.extract 1 name.size
  | some 27 => "binary string".toUTF8
  | _ => name

end ChunkName

/-- Why a text does not compile. -/
inductive CompileFault where
  | malformed (message : ByteArray)
  | tooDeep

namespace CompileFault

def message : CompileFault → ByteArray
  | .malformed message => message
  | .tooDeep => "C stack overflow".toUTF8

end CompileFault

/-- The text is taken for a compiled script. -/
def isCompiled (source : ByteArray) : Bool :=
  source[0]? == some 27

/-- What a compiled script would have to begin with after its first byte, part by part, with what
is wrong if it does not. -/
def compiledHeader : List (List UInt8 × String) :=
  [([76, 117, 97], "not a binary chunk"), ([0x54], "version mismatch"), ([0], "format mismatch"),
    ([0x19, 0x93, 13, 10, 0x1A, 10], "corrupted chunk")]

/-- What is wrong with a text that is taken for a compiled script. -/
def compiledFault (bytes : List UInt8) : List (List UInt8 × String) → String
  | [] => "truncated chunk"
  | (part, wrong) :: parts =>
    if bytes.length < part.length then "truncated chunk"
    else if bytes.take part.length = part then compiledFault (bytes.drop part.length) parts
    else wrong

/-- Compiles a text under a name. -/
def compile (source name : ByteArray) : Except CompileFault FunctionBody :=
  if isCompiled source then
    let wrong := compiledFault (source.toList.drop 1) compiledHeader
    .error (.malformed (ChunkName.unmarked name ++ (": bad binary format (" ++ wrong ++ ")").toUTF8))
  else
    match FunctionBody.ofChars (charsOfBytes source) with
    | .ok body => .ok body
    | .error .tooDeep => .error .tooDeep
    | .error (.malformed fault) =>
      .error (.malformed (ChunkName.short name ++ (":" ++ toString fault.line ++ ": ").toUTF8
        ++ bytesOfChars fault.message))

end Script
end HookPool
