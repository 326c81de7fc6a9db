/-
# Sizes, layer by layer

Three layers give sizes to a stress run, the topmost one first: the command line together with the
environment, the file that is named, and the usual sizes.  All but the last may leave sizes out.  Each
size is that of the topmost layer which gives it, whatever the layers say of the other two
(`PoolConfig.Stacks`), and only what comes of all three has to be honoured by a pool.

| the file | what comes of it |
|---|---|
| is not named | a layer that gives nothing |
| cannot be read, or is no text | an error of reading |
| is a text that gives no sizes | an error with the place in the text |
| gives some sizes | a layer of them |

Main statement: `resolve_layered`.
-/
import HookPool.CommandLine.Stress
import HookPool.Proofs.Config.Fields

namespace HookPool

/-- Each size is that of the topmost layer which gives it, and else the usual one. -/
def PoolConfig.Stacks (config : PoolConfig) (layers : List Sizes) : Prop :=
  ∀ field : Config.Field,
    field.of config = (layers.findSome? field.get?).getD (field.of PoolConfig.default)

namespace PoolConfig

variable {config config' : PoolConfig} {layers layers' : List Sizes}

theorem stacks_nil : default.Stacks [] := fun _ => rfl

/-- **Putting a layer on top is stacking it.** -/
theorem Stacks.override (h : config.Stacks layers) (sizes : Sizes) :
    (config.override sizes).Stacks (sizes :: layers) := by
  intro field
  rw [field.of_override, List.findSome?_cons]
  cases field.get? sizes with
  | some n => rfl
  | none => exact h field

/-- Layers that give the same sizes stack to the same. -/
theorem Stacks.eq (h : config.Stacks layers) (h' : config'.Stacks layers')
    (hsame : ∀ field : Config.Field,
      (layers.findSome? field.get?).getD (field.of default) =
        (layers'.findSome? field.get?).getD (field.of default)) : config = config' :=
  ext_fields fun field => by rw [h field, h' field, hsame field]

/-- What is wrong with sizes that no pool can honour. -/
def fault (config : PoolConfig) : ConfigFault :=
  if config.maxActive = 0 then .nothingLent
  else .startAboveActive config.startCount config.maxActive

theorem fault?_of_not_valid (h : ¬config.Valid) : config.fault? = some config.fault := by
  unfold Valid at h
  unfold fault? fault
  split
  · rfl
  · rw [if_pos (by omega)]

end PoolConfig

namespace CommandLine

/-- What is under the sizes that the command line gives: the layer of the file that is named, or one
that gives nothing. -/
inductive Beneath (files : Files) : Option String → Sizes → Prop where
  | nothing : Beneath files none {}
  | file {path text : String} {bytes : ByteArray} {layer : Sizes} (hread : files path = .ok bytes)
    (htext : Text.decode? bytes = some text) (hlayer : Config.sizesOfJson text.toList = .ok layer) :
    Beneath files (some path) layer

/-- A file is named that gives no layer, for a reason. -/
inductive Unusable (files : Files) : Option String → Error → Prop where
  | unread {path : String} {e : IoError} (hread : files path = .error e) :
    Unusable files (some path) (.io e)
  | noText {path : String} {bytes : ByteArray} (hread : files path = .ok bytes)
    (htext : Text.decode? bytes = none) : Unusable files (some path) (.io .invalidUtf8)
  | noSizes {path text : String} {bytes : ByteArray} {failure : Json.Failure}
    (hread : files path = .ok bytes) (htext : Text.decode? bytes = some text)
    (hlayer : Config.sizesOfJson text.toList = .error failure) :
    Unusable files (some path) (.config (failure.place text.toList))

/-- The error is one of reading a file or of what it holds. -/
def IsOfFile (e : Error) : Prop :=
  (∃ cause, e = .io cause) ∨ ∃ place, e = .config place

variable {files : Files} {file : Option String} {layer : Sizes} {e : Error}

theorem beneath_or_unusable (files : Files) (file : Option String) :
    (∃ layer, Beneath files file layer) ∨ ∃ e, Unusable files file e := by
  cases file with
  | none => exact .inl ⟨_, .nothing⟩
  | some path =>
    cases hread : files path with
    | error e => exact .inr ⟨_, .unread hread⟩
    | ok bytes =>
      cases htext : Text.decode? bytes with
      | none => exact .inr ⟨_, .noText hread htext⟩
      | some text =>
        cases hlayer : Config.sizesOfJson text.toList with
        | error failure => exact .inr ⟨_, .noSizes hread htext hlayer⟩
        | ok layer => exact .inl ⟨_, .file hread htext hlayer⟩

theorem Unusable.isOfFile (h : Unusable files file e) : IsOfFile e := by
  cases h with
  | unread hread => exact .inl ⟨_, rfl⟩
  | noText hread htext => exact .inl ⟨_, rfl⟩
  | noSizes hread htext hlayer => exact .inr ⟨_, rfl⟩

/-- **A file that gives no layer is the reason to fail**, whatever is put on top. -/
theorem Unusable.resolve_eq (h : Unusable files file e) (sizes : Sizes) :
    resolve files file sizes = .error e := by
  cases h with
  | unread hread =>
    simp only [resolve, PoolConfig.ofFile, hread]
    rfl
  | noText hread htext =>
    simp only [resolve, PoolConfig.ofFile, hread, PoolConfig.ofBytes, htext]
    rfl
  | noSizes hread htext hlayer =>
    simp only [resolve, PoolConfig.ofFile, hread, PoolConfig.ofBytes, htext, PoolConfig.ofJson,
      hlayer]
    rfl

/-- **The layers are put on each other first, and what comes of them is checked last.** -/
theorem Beneath.resolve_eq (h : Beneath files file layer) (sizes : Sizes) :
    ∃ config : PoolConfig, config.Stacks [sizes, layer] ∧ resolve files file sizes =
      if config.Valid then .ok config else .error (.invalidConfig config.fault) := by
  refine ⟨_, (PoolConfig.stacks_nil.override layer).override sizes, ?_⟩
  generalize hconfig : (PoolConfig.default.override layer).override sizes = config
  have hresolve : resolve files file sizes =
      config.fault?.elim (.ok config) fun fault => .error (.invalidConfig fault) := by
    cases h with
    | nothing =>
      have hconfig : PoolConfig.default.override sizes = config := hconfig
      simp only [resolve, pure_bind, hconfig]
      cases config.fault? <;> rfl
    | @file path _ _ layer hread htext hlayer =>
      have hfile : PoolConfig.ofFile files path = .ok (PoolConfig.default.override layer) := by
        simp only [PoolConfig.ofFile, hread, PoolConfig.ofBytes, htext, PoolConfig.ofJson, hlayer]
        rfl
      simp only [resolve, hfile, bind, Except.bind, hconfig]
      cases config.fault? <;> rfl
  by_cases hvalid : config.Valid
  · rw [hresolve, (PoolConfig.fault?_eq_none_iff config).2 hvalid, if_pos hvalid]
    rfl
  · rw [hresolve, PoolConfig.fault?_of_not_valid hvalid, if_neg hvalid]
    rfl

/-- What the sizes of a stress run come to. -/
structure Layered (files : Files) (file : Option String) (sizes : Sizes) : Prop where
  /-- The file is the reason to fail exactly if one is named that gives no layer. -/
  unusable : ∀ e, IsOfFile e ∧ resolve files file sizes = .error e ↔ Unusable files file e
  /-- Else each size is that of the topmost layer which gives it, and all of them together are taken
  exactly if a pool can honour them. -/
  stacked : (¬∃ e, Unusable files file e) → ∃ layer config, Beneath files file layer ∧
    config.Stacks [sizes, layer] ∧ resolve files file sizes =
      if 1 ≤ config.maxActive ∧ config.startCount ≤ config.maxActive then .ok config
      else .error (.invalidConfig config.fault)
  /-- Nothing else counts: other layers that stack to the same come to the same. -/
  only : ∀ layer, Beneath files file layer → ∀ files' file' sizes' layer',
    Beneath files' file' layer' →
      (∀ field : Config.Field,
        ([sizes, layer].findSome? field.get?).getD (field.of .default) =
          ([sizes', layer'].findSome? field.get?).getD (field.of .default)) →
      resolve files' file' sizes' = resolve files file sizes
  /-- So whatever a file gives can be made good on top, and made bad. -/
  mended : ∀ layer, Beneath files file layer → ∃ config,
    resolve files file { sizes with startCount := some 0, maxActive := some 1 } = .ok config
  marred : ∀ layer, Beneath files file layer →
    resolve files file { sizes with maxActive := some 0 } = .error (.invalidConfig .nothingLent)

/-- **Sizes are resolved field by field**, and checked only when all layers have had their say. -/
theorem resolve_layered (files : Files) (file : Option String) (sizes : Sizes) :
    Layered files file sizes := by
  refine ⟨fun e => ⟨fun ⟨he, h⟩ => ?_, fun h => ⟨h.isOfFile, h.resolve_eq sizes⟩⟩, fun hnone => ?_,
    fun layer hb files' file' sizes' layer' hb' hsame => ?_, fun layer hb => ?_,
    fun layer hb => ?_⟩
  · rcases beneath_or_unusable files file with ⟨layer, hb⟩ | ⟨e', hu⟩
    · -- a layer there is, so that only the check can fail
      obtain ⟨config, -, hresolve⟩ := hb.resolve_eq sizes
      rw [h] at hresolve
      split at hresolve
      · cases hresolve
      · obtain rfl := Except.error.inj hresolve
        rcases he with ⟨cause, he⟩ | ⟨place, he⟩ <;> cases he
    · rw [hu.resolve_eq sizes] at h
      obtain rfl := Except.error.inj h
      exact hu
  · obtain ⟨layer, hb⟩ := (beneath_or_unusable files file).resolve_right hnone
    obtain ⟨config, hstack, hresolve⟩ := hb.resolve_eq sizes
    exact ⟨layer, config, hb, hstack, hresolve⟩
  · obtain ⟨config, hstack, hresolve⟩ := hb.resolve_eq sizes
    obtain ⟨config', hstack', hresolve'⟩ := hb'.resolve_eq sizes'
    obtain rfl := hstack.eq hstack' hsame
    rw [hresolve, hresolve']
  · obtain ⟨config, hstack, hresolve⟩ :=
      hb.resolve_eq { sizes with startCount := some 0, maxActive := some 1 }
    have hstart : config.startCount = 0 := hstack .startCount
    have hactive : config.maxActive = 1 := hstack .maxActive
    have hvalid : config.Valid := ⟨by omega, by omega⟩
    exact ⟨config, by rw [hresolve, if_pos hvalid]⟩
  · obtain ⟨config, hstack, hresolve⟩ := hb.resolve_eq { sizes with maxActive := some 0 }
    have hactive : config.maxActive = 0 := hstack .maxActive
    have hbad : ¬config.Valid := fun hvalid => by
      have := hvalid.1
      omega
    rw [hresolve, if_neg hbad, PoolConfig.fault, if_pos hactive]

/-- A file that asks for more contexts to start with than it lets be lent is refused, unless the
command line lets more be lent. -/
example :
    let files : Files := fun _ => .ok "[9]".toUTF8
    resolve files (some "pool.json") {} = .error (.invalidConfig (.startAboveActive 9 8)) ∧
      resolve files (some "pool.json") { maxActive := some 9 } = .ok ⟨9, 9, 4⟩ := by
  intro files
  exact ⟨rfl, rfl⟩

end CommandLine
end HookPool
