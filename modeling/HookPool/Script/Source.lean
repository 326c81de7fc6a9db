/-
# Scripts as they are handed in

The bytes of a script and the name that its errors carry.  A script that is read from a file is
named after the file.
-/
import HookPool.Files
import HookPool.Script.Interpreter

namespace HookPool
namespace Script

/-- A script that is not loaded yet. -/
structure Source where
  payload : ByteArray
  name : String

namespace Source

/-- The name of a script in a file. -/
def nameOfPath (path : String) : String := "@" ++ path

/-- The script in a file. -/
def ofFile (files : Files) (path : String) : Except Error Source :=
  match files path with
  | .error e => .error (.io e)
  | .ok payload => .ok ⟨payload, nameOfPath path⟩

def withName (source : Source) (name : String) : Source := { source with name }

end Source

/-- Loads a script, and tells what it has printed. -/
def Interpreter.loadSource {ω σ τ φ : Type} (ip : Interpreter ω σ τ φ) (occasion : ω)
    (source : Source) : Except Error (Loaded σ τ) × List ByteArray :=
  let result := ip.load occasion source.payload source.name
  (result.state.mapError (Error.script source.name), result.printed)

end Script
end HookPool
