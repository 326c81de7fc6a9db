/-
# Identities of contexts and managers

Contexts and managers are numbered from one, each kind on its own.
-/

namespace HookPool

/-- The identity of a context. -/
structure ContextId where
  number : Nat
  deriving DecidableEq, Repr

/-- The identity of a manager. -/
structure ManagerId where
  number : Nat
  deriving DecidableEq, Repr

def ContextId.name (id : ContextId) : String :=
  "ctx#" ++ toString id.number

def ManagerId.name (id : ManagerId) : String :=
  "manager#" ++ toString id.number

end HookPool
