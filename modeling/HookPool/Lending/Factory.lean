/-
# Where contexts come from and what is done with them

A factory makes contexts.  Each time it is asked, it loads a script, or fails, or comes to grief;
which of these, may differ from one time to the next.  Nothing is known of the scripts but what a
call of a hook does to one.
-/
import HookPool.Error
import HookPool.Hook

namespace HookPool
namespace Lending

/-- What comes of calling a hook of a script. -/
structure Invocation (σ : Type) where
  /-- The script afterwards. -/
  script : σ
  /-- The lines that were printed, the first one first. -/
  printed : List ByteArray
  /-- The reply or the error; nothing if the script does not define the hook. -/
  reply? : Option (Except Error HookReply)

/-- How hooks of scripts are called. -/
abbrev Invoke (σ : Type) : Type := σ → String → List HookArg → Invocation σ

/-- What comes of asking a factory for a context. -/
inductive Product (σ : Type) where
  /-- A script was loaded under a name and printed lines meanwhile. -/
  | loaded (name : String) (script : σ) (printed : List ByteArray)
  | failed (error : Error) (printed : List ByteArray)
  /-- The factory comes to grief and takes its caller along. -/
  | panics (payload : String)

/-- A maker of contexts. -/
structure Factory (σ : Type) where
  name : String
  /-- What comes of asking it for the `n`-th time, from zero. -/
  product : Nat → Product σ
  /-- How often it was asked. -/
  asked : Nat := 0

end Lending
end HookPool
