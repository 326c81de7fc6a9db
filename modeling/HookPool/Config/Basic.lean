/-
# Sizes of a pool

A pool is sized by three numbers: how many contexts it builds when it is made, how many it lends
at once at the most, and how many it keeps for reuse.  Sizes come from several layers, each of
which may give any of the three; `Sizes` is one layer and `PoolConfig.override` puts it on top.

`validate` refuses what no pool can honour: a pool that lends nothing, and one that starts with
more contexts than it may lend.
-/

namespace HookPool

/-- The sizes of a pool. -/
structure PoolConfig where
  /-- Contexts built when the pool is made. -/
  startCount : Nat
  /-- The most contexts that are lent at once. -/
  maxActive : Nat
  /-- The most contexts that a return leaves idle. -/
  maxIdle : Nat
  deriving DecidableEq, Repr

/-- One layer of sizes: any of the three may be given. -/
structure Sizes where
  startCount : Option Nat := none
  maxActive : Option Nat := none
  maxIdle : Option Nat := none
  deriving DecidableEq, Repr

/-- Why sizes are refused. -/
inductive ConfigFault where
  | nothingLent
  | startAboveActive (startCount maxActive : Nat)
  /-- The variable's value is no size. -/
  | notASize (variable_ value : String)
  /-- A reason in words. -/
  | stated (reason : String)
  deriving DecidableEq, Repr

/-- The wording of a fault. -/
def ConfigFault.message : ConfigFault → String
  | .nothingLent => "max_active must be at least 1"
  | .startAboveActive startCount maxActive =>
    "start_count " ++ toString startCount ++ " exceeds max_active " ++ toString maxActive
  | .notASize variable_ value =>
    variable_ ++ " must be a non-negative integer, got '" ++ value ++ "'"
  | .stated reason => reason

namespace PoolConfig

/-- The sizes when no layer gives any. -/
def default : PoolConfig := ⟨1, 8, 4⟩

/-- The sizes with those that `sizes` gives put in their place. -/
def override (config : PoolConfig) (sizes : Sizes) : PoolConfig where
  startCount := sizes.startCount.getD config.startCount
  maxActive := sizes.maxActive.getD config.maxActive
  maxIdle := sizes.maxIdle.getD config.maxIdle

/-- The sizes that a pool can honour. -/
def Valid (config : PoolConfig) : Prop :=
  1 ≤ config.maxActive ∧ config.startCount ≤ config.maxActive

instance (config : PoolConfig) : Decidable config.Valid :=
  inferInstanceAs (Decidable (_ ∧ _))

/-- The first reason for which the sizes are refused. -/
def fault? (config : PoolConfig) : Option ConfigFault :=
  if config.maxActive = 0 then some .nothingLent
  else if config.maxActive < config.startCount then
    some (.startAboveActive config.startCount config.maxActive)
  else none

theorem fault?_eq_none_iff (config : PoolConfig) : config.fault? = none ↔ config.Valid := by
  unfold fault? Valid
  split
  · simp; omega
  · split <;> simp <;> omega

/-- The JSON object that holds the sizes. -/
def toJson (config : PoolConfig) : String :=
  "\x7b\"start_count\":" ++ toString config.startCount ++
    ",\"max_active\":" ++ toString config.maxActive ++
    ",\"max_idle\":" ++ toString config.maxIdle ++ "\x7d"

/-- The sizes as diagnostics show them. -/
def describe (config : PoolConfig) : String :=
  "PoolConfig \x7b start_count: " ++ toString config.startCount ++
    ", max_active: " ++ toString config.maxActive ++
    ", max_idle: " ++ toString config.maxIdle ++ " \x7d"

end PoolConfig
end HookPool
