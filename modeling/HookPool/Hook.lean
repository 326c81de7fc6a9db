/-
# Hooks, their arguments and their replies

A hook is a function of a script's table that stands for one operation of a file system.  It takes
texts, integers and bytes, and replies with a status (a negative one is the negated number of an
error) or with data.
-/
import HookPool.Text.Quoted

namespace HookPool

/-- The operations of a file system that a script may define, in the order in which they are
listed. -/
def knownHooks : List String :=
  ["getattr", "readlink", "mknod", "mkdir", "unlink", "rmdir", "symlink", "rename", "link",
    "chmod", "chown", "truncate", "open", "read", "write", "statfs", "flush", "release", "fsync",
    "setxattr", "getxattr", "listxattr", "removexattr", "opendir", "readdir", "releasedir",
    "fsyncdir", "init", "destroy", "access", "create", "ftruncate", "fgetattr", "utimens"]

/-- An argument of a hook. -/
inductive HookArg where
  | text (value : String)
  | integer (value : Int64)
  | bytes (value : List UInt8)
  deriving DecidableEq

/-- The argument as diagnostics show it. -/
def HookArg.describe : HookArg → String
  | .text value => "Str(" ++ Text.quote value ++ ")"
  | .integer value => "Int(" ++ toString value.toInt ++ ")"
  | .bytes value => "Bytes(" ++ Text.showBytes value ++ ")"

/-- What a hook replies. -/
inductive HookReply where
  | status (code : Int64)
  | data (bytes : List UInt8)
  deriving DecidableEq

namespace HookReply

/-- The number of the error "function not implemented". -/
def notImplementedNumber : Int64 := 38

/-- The reply for an operation that the script does not define. -/
def notImplemented : HookReply := .status (-notImplementedNumber)

/-- A negative status is an error. -/
def isError : HookReply → Bool
  | .status code => code < 0
  | .data _ => false

end HookReply
end HookPool
