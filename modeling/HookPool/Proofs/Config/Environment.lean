/-
# Sizes that the environment gives

The grammar of a variable's value is white space, an unsigned numeral below `2 ^ 64` and white space
again (`Environment.Denotes`).  A variable that is set to anything else offends.

| the variables | what comes of it |
|---|---|
| none offends | each that is set gives its field, and the others leave theirs as it was |
| some offend | an error that names the first of them and quotes its value, white space and all |

The fields are not checked against each other here.

Main statement: `override_exact`.
-/
import HookPool.Config.Environment
import HookPool.Error
import HookPool.Proofs.Config.Fields
import HookPool.Proofs.Results
import HookPool.Proofs.Text.Numeral

namespace HookPool

namespace Config.Field

/-- The variable that gives the field. -/
def variable_ : Field → String
  | .startCount => Environment.startCountVariable
  | .maxActive => Environment.maxActiveVariable
  | .maxIdle => Environment.maxIdleVariable

/-- The fields whose variables are looked at before the field's. -/
def earlier : Field → List Field
  | .startCount => []
  | .maxActive => [.startCount]
  | .maxIdle => [.startCount, .maxActive]

end Config.Field

namespace Environment

open Config (Field)

/-- A value that is the numeral of a size, with any white space around it. -/
def Denotes (value : String) (n : Nat) : Prop :=
  ∃ before numeral after, value.toList = before ++ numeral ++ after ∧
    (∀ c ∈ before, Text.isBlank c = true) ∧ (∀ c ∈ after, Text.isBlank c = true) ∧
      Text.UnsignedNumeral numeral n ∧ n < 2 ^ 64

/-- A variable is set to a value that is no size. -/
def Offends (lookup : String → Option String) (field : Field) (value : String) : Prop :=
  lookup field.variable_ = some value ∧ ∀ n, ¬Denotes value n

/-- No variable that is looked at before offends. -/
def FirstOffends (lookup : String → Option String) (field : Field) (value : String) : Prop :=
  Offends lookup field value ∧ ∀ f ∈ field.earlier, ∀ value, ¬Offends lookup f value

variable {lookup : String → Option String} {value : String} {n : Nat} {field : Field}
  {size : Option Nat} {layer : Sizes} {fault : ConfigFault}

/-! ## One variable -/

/-- **A value is a size exactly if it denotes one.** -/
theorem size?_eq_some_iff : size? value = some n ↔ Denotes value n := by
  have hread : size? value = some n ↔
      Text.UnsignedNumeral (Text.trimChars value.toList) n ∧ n < 2 ^ 64 := by
    rw [← Text.le_maxWord_iff, ← Text.readUnsigned_eq_ok_iff, size?]
    cases Text.readUnsigned Text.maxWord (Text.trimChars value.toList) <;> simp [Except.toOption]
  rw [hread]
  constructor
  · rintro ⟨hnumeral, hn⟩
    obtain ⟨before, after, hbefore, hafter, heq⟩ := Text.eq_append_trimChars value.toList
    exact ⟨before, _, after, heq, hbefore, hafter, hnumeral, hn⟩
  · rintro ⟨before, numeral, after, heq, hbefore, hafter, hnumeral, hn⟩
    rw [heq, Text.trimChars_append hbefore hnumeral.isBlank_eq_false hafter]
    exact ⟨hnumeral, hn⟩

/-- What a variable gives if its value is all right. -/
theorem sizeOf_eq_ok (h : sizeOf field.variable_ lookup = .ok size) :
    (∀ value, lookup field.variable_ = some value → ∃ n, size = some n ∧ Denotes value n) ∧
      (lookup field.variable_ = none → size = none) := by
  unfold sizeOf at h
  split at h
  next hnone => exact ⟨fun value h => by simp [hnone] at h, fun _ => (Except.ok.inj h).symm⟩
  next value hvalue =>
    refine ⟨fun value' h' => ?_, fun h => by simp [hvalue] at h⟩
    obtain rfl := Option.some.inj (hvalue.symm.trans h')
    split at h
    next n hn => exact ⟨n, (Except.ok.inj h).symm, size?_eq_some_iff.1 hn⟩
    next => cases h

/-- A variable is reported exactly if it offends. -/
theorem sizeOf_eq_error_iff_offends : sizeOf field.variable_ lookup = .error fault ↔
    ∃ value, Offends lookup field value ∧ fault = .notASize field.variable_ value := by
  have hnone (value : String) : size? value = none ↔ ∀ n, ¬Denotes value n := by
    simp only [← size?_eq_some_iff, Option.eq_none_iff_forall_ne_some, ne_eq]
  simp only [sizeOf_eq_error_iff, hnone, Offends, and_assoc]

theorem exists_sizeOf_iff : (∃ size, sizeOf field.variable_ lookup = .ok size) ↔
    ∀ value, ¬Offends lookup field value := by
  cases h : sizeOf field.variable_ lookup with
  | error fault =>
    obtain ⟨value, hoffends, -⟩ := sizeOf_eq_error_iff_offends.1 h
    exact iff_of_false nofun fun hnone => hnone value hoffends
  | ok size =>
    refine iff_of_true ⟨size, rfl⟩ fun value hoffends => ?_
    rw [sizeOf_eq_error_iff_offends.2 ⟨value, hoffends, rfl⟩] at h
    cases h

/-! ## All variables -/

theorem sizes_eq_ok_iff :
    sizes lookup = .ok layer ↔
      ∀ field : Field, sizeOf field.variable_ lookup = .ok (field.get? layer) := by
  simp only [sizes, bind_eq_ok_iff]
  constructor
  · rintro ⟨startCount, hs, maxActive, ha, maxIdle, hi, h⟩ field
    obtain rfl := Except.ok.inj h
    cases field
    · exact hs
    · exact ha
    · exact hi
  · intro h
    exact ⟨_, h .startCount, _, h .maxActive, _, h .maxIdle, rfl⟩

theorem exists_sizes_iff :
    (∃ layer, sizes lookup = .ok layer) ↔ ∀ field value, ¬Offends lookup field value := by
  simp only [sizes_eq_ok_iff]
  constructor
  · rintro ⟨layer, h⟩ field
    exact exists_sizeOf_iff.1 ⟨_, h field⟩
  · intro h
    obtain ⟨startCount, hs⟩ := exists_sizeOf_iff.2 (h .startCount)
    obtain ⟨maxActive, ha⟩ := exists_sizeOf_iff.2 (h .maxActive)
    obtain ⟨maxIdle, hi⟩ := exists_sizeOf_iff.2 (h .maxIdle)
    refine ⟨⟨startCount, maxActive, maxIdle⟩, fun field => ?_⟩
    cases field
    · exact hs
    · exact ha
    · exact hi

/-- **The first variable that offends is the one that is reported.** -/
theorem sizes_eq_error_iff : sizes lookup = .error fault ↔ ∃ field : Field,
    sizeOf field.variable_ lookup = .error fault ∧
      ∀ f ∈ field.earlier, ∃ size, sizeOf f.variable_ lookup = .ok size := by
  simp only [sizes, bind_eq_error_iff]
  constructor
  · rintro (h | ⟨s, hs, h | ⟨a, ha, h | ⟨i, hi, h⟩⟩⟩)
    · exact ⟨.startCount, h, by simp [Field.earlier]⟩
    · exact ⟨.maxActive, h, by simpa [Field.earlier] using ⟨s, hs⟩⟩
    · exact ⟨.maxIdle, h, by simpa [Field.earlier] using ⟨⟨s, hs⟩, ⟨a, ha⟩⟩⟩
    · cases h
  · rintro ⟨field, h, hearlier⟩
    cases field with
    | startCount => exact .inl h
    | maxActive =>
      obtain ⟨s, hs⟩ := hearlier .startCount (by simp [Field.earlier])
      exact .inr ⟨s, hs, .inl h⟩
    | maxIdle =>
      obtain ⟨s, hs⟩ := hearlier .startCount (by simp [Field.earlier])
      obtain ⟨a, ha⟩ := hearlier .maxActive (by simp [Field.earlier])
      exact .inr ⟨s, hs, .inr ⟨a, ha, .inl h⟩⟩

/-- What comes of sizes with the environment's on top. -/
structure Overridden (config : PoolConfig) (lookup : String → Option String)
    (result : Except Error PoolConfig) : Prop where
  /-- There are sizes exactly if every variable that is set denotes one. -/
  accepted : (∃ config', result = .ok config') ↔
    ∀ (field : Field) (value : String), lookup field.variable_ = some value →
      ∃ n, Denotes value n
  /-- Then each field is what its variable denotes, or as it was. -/
  taken : ∀ config', result = .ok config' → ∀ field : Field,
    (∀ value, lookup field.variable_ = some value → Denotes value (field.of config')) ∧
      (lookup field.variable_ = none → field.of config' = field.of config)
  /-- There is an error exactly for the first variable that offends, whatever the later ones are. -/
  refused : ∀ e, result = .error e ↔ ∃ (field : Field) (value : String),
    FirstOffends lookup field value ∧ e = .invalidConfig (.notASize field.variable_ value)
  /-- It names the variable and quotes the value as it is. -/
  told : ∀ e, result = .error e → ∃ (field : Field) (value : String),
    FirstOffends lookup field value ∧ e.message = "invalid configuration: " ++
      (field.variable_ ++ " must be a non-negative integer, got '" ++ value ++ "'")

/-- **The environment gives sizes exactly by numerals below `2 ^ 64`.** -/
theorem override_exact (config : PoolConfig) (lookup : String → Option String) :
    Overridden config lookup ((override config lookup).mapError .invalidConfig) := by
  have hrefused (e : Error) : (override config lookup).mapError .invalidConfig = .error e ↔
      ∃ (field : Field) (value : String), FirstOffends lookup field value ∧
        e = .invalidConfig (.notASize field.variable_ value) := by
    simp only [override, mapError_eq_error_iff, map_eq_error_iff, sizes_eq_error_iff,
      sizeOf_eq_error_iff_offends, exists_sizeOf_iff]
    constructor
    · rintro ⟨_, ⟨field, ⟨value, hoffends, rfl⟩, hearlier⟩, rfl⟩
      exact ⟨field, value, ⟨hoffends, hearlier⟩, rfl⟩
    · rintro ⟨field, value, ⟨hoffends, hearlier⟩, rfl⟩
      exact ⟨_, ⟨field, ⟨value, hoffends, rfl⟩, hearlier⟩, rfl⟩
  refine ⟨?_, fun config' h field => ?_, hrefused, fun e h => ?_⟩
  · have haccepted : (∃ config', (override config lookup).mapError Error.invalidConfig =
        .ok config') ↔ ∃ layer, sizes lookup = .ok layer := by
      simp only [override, mapError_eq_ok_iff, map_eq_ok_iff]
      exact ⟨fun ⟨_, layer, h, _⟩ => ⟨layer, h⟩, fun ⟨layer, h⟩ => ⟨_, layer, h, rfl⟩⟩
    simp only [haccepted, exists_sizes_iff, Offends, not_and, Classical.not_forall,
      Classical.not_not]
  · simp only [override, mapError_eq_ok_iff, map_eq_ok_iff] at h
    obtain ⟨layer, hlayer, rfl⟩ := h
    obtain ⟨hset, hunset⟩ := sizeOf_eq_ok (sizes_eq_ok_iff.1 hlayer field)
    rw [field.of_override]
    refine ⟨fun value hvalue => ?_, fun hnone => ?_⟩
    · obtain ⟨n, hn, hdenotes⟩ := hset value hvalue
      rw [hn]
      exact hdenotes
    · rw [hunset hnone]
      rfl
  · obtain ⟨field, value, hfirst, rfl⟩ := (hrefused e).1 h
    exact ⟨field, value, hfirst, rfl⟩

/-- The first value that is none is the one that is quoted, and nothing is said of the next. -/
example :
    let lookup name :=
      if name = startCountVariable then some "\u20037\n"
      else if name = maxActiveVariable then some " +-1" else some ""
    override .default lookup = .error (.notASize maxActiveVariable " +-1") := by
  intro lookup
  rfl

end Environment
end HookPool
