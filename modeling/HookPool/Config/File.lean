/-
# Sizes from a file

A file with sizes holds one JSON value in UTF-8.
-/
import HookPool.Config.Reader
import HookPool.Error
import HookPool.Files
import HookPool.Text.Utf8

namespace HookPool
namespace PoolConfig

/-- The sizes that the bytes of a file give. -/
def ofBytes (bytes : ByteArray) : Except Error PoolConfig :=
  match Text.decode? bytes with
  | none => .error (.io .invalidUtf8)
  | some text => (ofJson text).mapError .config

/-- The sizes that a file gives. -/
def ofFile (files : Files) (path : String) : Except Error PoolConfig :=
  match files path with
  | .error e => .error (.io e)
  | .ok bytes => ofBytes bytes

end PoolConfig
end HookPool
