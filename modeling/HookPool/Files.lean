/-
# Reading files

All that is known of files is what reading a path gives: bytes or an error.
-/
import HookPool.IoError

namespace HookPool

/-- What reading each path gives. -/
abbrev Files : Type := String → Except IoError ByteArray

end HookPool
