/-
# Sizes by their fields

Sizes of a pool, and layers of sizes, are known by what they have in the three fields.
-/
import HookPool.Config.Reader

namespace HookPool

/-- The size of a pool that the field stands for. -/
def Config.Field.of : Config.Field → PoolConfig → Nat
  | .startCount => PoolConfig.startCount
  | .maxActive => PoolConfig.maxActive
  | .maxIdle => PoolConfig.maxIdle

variable {config config' : PoolConfig} {sizes sizes' : Sizes}

/-- Sizes are known by their fields. -/
theorem PoolConfig.ext_fields (h : ∀ field : Config.Field, field.of config = field.of config') :
    config = config' := by
  obtain ⟨startCount, maxActive, maxIdle⟩ := config
  obtain ⟨startCount', maxActive', maxIdle'⟩ := config'
  obtain rfl : startCount = startCount' := h .startCount
  obtain rfl : maxActive = maxActive' := h .maxActive
  obtain rfl : maxIdle = maxIdle' := h .maxIdle
  rfl

/-- A layer on top counts in the fields that it gives. -/
theorem Config.Field.of_override (field : Config.Field) (config : PoolConfig) (sizes : Sizes) :
    field.of (config.override sizes) = (field.get? sizes).getD (field.of config) := by
  cases field <;> rfl

/-- What is put into one field stays out of the others. -/
theorem Config.Field.get?_set (field field' : Config.Field) (n : Nat) (sizes : Sizes) :
    field'.get? (field.set n sizes) = if field' = field then some n else field'.get? sizes := by
  cases field <;> cases field' <;> rfl

theorem Config.Field.get?_empty (field : Config.Field) : field.get? {} = none := by
  cases field <;> rfl

end HookPool
