/-
# Contexts

A context is a loaded script with an identity.  A manager that makes one stamps it as its own; a
context that was made outside every manager has no owner, and nothing ever changes an owner.

Contexts are values that move: from the manager that keeps one idle into the hands of the caller
that it is lent to, and back.  Wherever one is, it is there alone.
-/
import HookPool.Identity
import HookPool.Text.Quoted

namespace HookPool
namespace Lending

/-- A loaded script `script` of type `σ`, with its identity. -/
structure Context (σ : Type) where
  id : ContextId
  /-- The manager that lends it. -/
  owner : Option ManagerId
  /-- The name of its script. -/
  name : String
  script : σ

namespace Context

/-- The owner as diagnostics show it. -/
def describeOwner : Option ManagerId → String
  | none => "None"
  | some m => "Some(ManagerId(" ++ toString m.number ++ "))"

/-- The context as diagnostics show it; its script is left out. -/
def describe {σ : Type} (c : Context σ) : String :=
  "ExecutionContext \x7b id: ContextId(" ++ toString c.id.number ++ "), owner: " ++
    describeOwner c.owner ++ ", name: " ++ Text.quote c.name ++ ", .. \x7d"

end Context
end Lending
end HookPool
