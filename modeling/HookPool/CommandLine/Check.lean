/-
# Checking a script

A script is loaded once, and the hooks that it defines are listed.
-/
import HookPool.Script.Source

namespace HookPool
namespace CommandLine
namespace Check

/-- What is told of a script that can be loaded and of the hooks that it defines. -/
def summary (name : String) (hooks : List String) : List String :=
  [name ++ ": ok",
    if hooks.isEmpty then "  no filesystem hooks defined; every operation will return ENOSYS"
    else "  hooks: " ++ ", ".intercalate hooks]

/-- Loads a script and looks its hooks up; with the lines that it has printed. -/
def hooksOf {ω σ τ φ : Type} (ip : Script.Interpreter ω σ τ φ) (occasion : ω)
    (source : Script.Source) : Except Error (List String) × List ByteArray :=
  match ip.loadSource occasion source with
  | (.error e, printed) => (.error e, printed)
  | (.ok c, printed) =>
    let (hooks, c) := ip.definedHooks c
    (hooks, printed ++ (ip.takeLines c).1)

/-- The script in a file, under a name if one is given. -/
def source (files : Files) (path : String) (name : Option String) :
    Except Error Script.Source := do
  let source ← Script.Source.ofFile files path
  return match name with
    | some name => source.withName name
    | none => source

end Check
end CommandLine
end HookPool
