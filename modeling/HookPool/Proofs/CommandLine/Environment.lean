/-
# The environment, as the library and as the command line reads it

Two ways lead from the three variables to the sizes of a pool.

| | bytes that are no text | white space around a value | the file |
|---|---|---|---|
| `layered`, for users of the library | count as unset | is taken away | read first |
| `poolOf?`, for stress runs | are refused | is refused | read last |

The numerals are the same on both ways.  So they agree on every variable that is unset or holds a text
without white space around it (`Plain`), and on no other one: **a stress run gets the sizes that the
library gives exactly if the library gives sizes and all variables are plain** (`poolOf?_eq_some_iff`).
A value such as `" 2 "` is a size for the library only (`padded_value_refused`).
-/
import HookPool.CommandLine.Run
import HookPool.Proofs.Results
import HookPool.Proofs.Text.Numeral

namespace HookPool

namespace Environment

/-- The texts that variables hold, for those who pass over bytes that are no text. -/
def texts (lookup : String → Option ByteArray) (name : String) : Option String :=
  (lookup name).bind Text.decode?

theorem sizeOf_eq_ok_iff {name text : String} {lookup : String → Option String}
    {size : Option Nat} (h : lookup name = some text) :
    sizeOf name lookup = .ok size ↔ ∃ n, size? text = some n ∧ some n = size := by
  simp only [sizeOf, h]
  cases size? text <;> simp

end Environment

/-- The sizes that a user of the library gets: those of a file, if one is named, with those of the
environment on top, if a pool can honour them. -/
def PoolConfig.layered (files : Files) (file : Option String)
    (lookup : String → Option ByteArray) : Except Error PoolConfig := do
  let config ← match file with
    | some path => PoolConfig.ofFile files path
    | none => pure PoolConfig.default
  let config ← (Environment.override config (Environment.texts lookup)).mapError .invalidConfig
  match config.fault? with
  | some fault => throw (.invalidConfig fault)
  | none => return config

namespace CommandLine

open Lending

/-- The sizes of the pool that a command line starts a stress run on, if it starts one. -/
def poolOf? (files : Files) (lookup : String → Option ByteArray) (words : List String) :
    Option PoolConfig :=
  match read lookup words with
  | .ok (.stress _ given) =>
    match Stress.planOf files given with
    | .ok (.pool config) => some config
    | _ => none
  | _ => none

/-- The value of a variable, if it is set, is a text without white space around it. -/
def Plain (value : Option ByteArray) : Prop :=
  ∀ bytes, value = some bytes → ∃ text, Text.decode? bytes = some text ∧ Text.trim text = text

theorem plain_some_iff {bytes : ByteArray} {text : String} (h : Text.decode? bytes = some text) :
    Plain (some bytes) ↔ Text.trimChars text.toList = text.toList := by
  have htrim : Text.trim text = text ↔ Text.trimChars text.toList = text.toList := by
    simp [Text.trim, String.ext_iff]
  rw [← htrim]
  constructor
  · intro hplain
    obtain ⟨_, hdecode, heq⟩ := hplain bytes rfl
    obtain rfl := Option.some.inj (h.symm.trans hdecode)
    exact heq
  · rintro heq _ ⟨⟩
    exact ⟨text, h, heq⟩

/-! ## One variable -/

/-- The size that a setting takes from the value of its variable. -/
def sizeFrom (setting : Setting) : Option ByteArray → Except Fault (Option Nat)
  | none => .ok none
  | some bytes =>
    match Text.decode? bytes with
    | none => .error .invalidText
    | some text => (Given.number setting text).map some

theorem number_eq_ok_iff {setting : Setting} {text : String} {n : Nat} :
    Given.number setting text = .ok n ↔
      Environment.size? text = some n ∧ Text.trimChars text.toList = text.toList := by
  unfold Given.number Environment.size?
  constructor
  · intro h
    have hread := mapError_eq_ok_iff.1 h
    -- A numeral has nothing to take away.
    have htrim := Text.trimChars_eq_self (Text.readUnsigned_eq_ok_iff.1 hread).1.isBlank_eq_false
    exact ⟨by rw [htrim, hread]; rfl, htrim⟩
  · rintro ⟨h, htrim⟩
    rw [htrim] at h
    cases hread : Text.readUnsigned Text.maxWord text.toList with
    | error fault => simp [hread, Except.toOption] at h
    | ok n' =>
      obtain rfl : n' = n := by simpa [hread, Except.toOption] using h
      rfl

/-- **A setting takes what the library takes, but from plain values only.** -/
theorem sizeFrom_eq_ok_iff {setting : Setting} {name : String}
    {lookup : String → Option ByteArray} {size : Option Nat} :
    sizeFrom setting (lookup name) = .ok size ↔
      Environment.sizeOf name (Environment.texts lookup) = .ok size ∧ Plain (lookup name) := by
  cases hbytes : lookup name with
  | none => simp [sizeFrom, Environment.sizeOf, Environment.texts, Plain, hbytes]
  | some bytes =>
    cases htext : Text.decode? bytes with
    | none => simp [sizeFrom, Plain, htext]
    | some text =>
      have htexts : Environment.texts lookup name = some text := by
        simp [Environment.texts, hbytes, htext]
      simp only [sizeFrom, htext, map_eq_ok_iff, number_eq_ok_iff,
        Environment.sizeOf_eq_ok_iff htexts, plain_some_iff htext]
      constructor
      · rintro ⟨n, ⟨hn, htrim⟩, hsize⟩
        exact ⟨⟨n, hn, hsize⟩, htrim⟩
      · rintro ⟨⟨n, hn, hsize⟩, htrim⟩
        exact ⟨n, ⟨hn, htrim⟩, hsize⟩

/-! ## All variables -/

/-- The sizes that the settings take from their variables. -/
def sizesFrom (lookup : String → Option ByteArray) : Except Fault Sizes := do
  let startCount ← sizeFrom .startCount (lookup Environment.startCountVariable)
  let maxActive ← sizeFrom .maxActive (lookup Environment.maxActiveVariable)
  let maxIdle ← sizeFrom .maxIdle (lookup Environment.maxIdleVariable)
  return ⟨startCount, maxActive, maxIdle⟩

/-- The three variables are plain. -/
def AllPlain (lookup : String → Option ByteArray) : Prop :=
  ∀ entry ∈ sizeVariables, Plain (lookup entry.2)

theorem sizesFrom_eq_ok_iff {lookup : String → Option ByteArray} {sizes : Sizes} :
    sizesFrom lookup = .ok sizes ↔
      Environment.sizes (Environment.texts lookup) = .ok sizes ∧ AllPlain lookup := by
  simp only [sizesFrom, Environment.sizes, bind_eq_ok_iff, sizeFrom_eq_ok_iff, AllPlain,
    sizeVariables, List.forall_mem_cons]
  constructor
  · rintro ⟨s, ⟨hs, ps⟩, a, ⟨ha, pa⟩, i, ⟨hi, pi⟩, h⟩
    refine ⟨⟨s, hs, a, ha, i, hi, ?_⟩, ps, pa, pi, by simp⟩
    cases h
    rfl
  · rintro ⟨⟨s, hs, a, ha, i, hi, h⟩, ps, pa, pi, -⟩
    refine ⟨s, ⟨hs, ps⟩, a, ⟨ha, pa⟩, i, ⟨hi, pi⟩, ?_⟩
    cases h
    rfl

/-- What was given, with the value that a variable has for a size. -/
def Given.putSize (g : Given) : Setting → Option Nat → Given
  | .startCount, some n => { g with sizes := { g.sizes with startCount := some n } }
  | .maxActive, some n => { g with sizes := { g.sizes with maxActive := some n } }
  | .maxIdle, some n => { g with sizes := { g.sizes with maxIdle := some n } }
  | _, _ => g

theorem put_eq_putSize {entry : Setting × String} (h : entry ∈ sizeVariables) (g : Given)
    (text : String) :
    g.put entry.1 text = (Given.number entry.1 text).map fun n => g.putSize entry.1 (some n) := by
  simp only [sizeVariables, List.mem_cons, List.not_mem_nil, or_false] at h
  rcases h with rfl | rfl | rfl <;> rfl

/-- One variable is read after the other. -/
theorem fromVariables_cons {entry : Setting × String} (h : entry ∈ sizeVariables)
    {lookup : String → Option ByteArray} {g : Given} (hset : g.has entry.1 = false)
    (rest : List (Setting × String)) :
    fromVariables lookup g (entry :: rest) =
      sizeFrom entry.1 (lookup entry.2) >>= fun size =>
        fromVariables lookup (g.putSize entry.1 size) rest := by
  have hunset : g.putSize entry.1 none = g := by
    cases entry.1 <;> rfl
  simp only [fromVariables, hset, Bool.false_eq_true, if_false]
  cases lookup entry.2 with
  | none => simp [sizeFrom, bind, Except.bind, hunset]
  | some bytes =>
    simp only [sizeFrom]
    cases Text.decode? bytes with
    | none => rfl
    | some text =>
      simp only [put_eq_putSize h]
      cases Given.number entry.1 text <;> rfl

theorem putSize_putSize {given : Given} (h : given.sizes = {}) (s a i : Option Nat) :
    ((given.putSize .startCount s).putSize .maxActive a).putSize .maxIdle i =
      { given with sizes := ⟨s, a, i⟩ } := by
  obtain ⟨script, name, hook, arguments, threads, calls, config, _, single, verbose⟩ := given
  obtain rfl := h
  cases s <;> cases a <;> cases i <;> rfl

/-- **Without sizes among the words, all of them come from the variables.** -/
theorem fromVariables_eq {given : Given} (h : given.sizes = {})
    (lookup : String → Option ByteArray) :
    fromVariables lookup given sizeVariables =
      (sizesFrom lookup).map fun sizes => { given with sizes } := by
  have hs : given.has .startCount = false := by simp [Given.has, h]
  have ha (s : Option Nat) : (given.putSize .startCount s).has .maxActive = false := by
    cases s <;> simp [Given.has, Given.putSize, h]
  have hi (s a : Option Nat) :
      ((given.putSize .startCount s).putSize .maxActive a).has .maxIdle = false := by
    cases s <;> cases a <;> simp [Given.has, Given.putSize, h]
  unfold sizeVariables sizesFrom
  rw [fromVariables_cons (by simp [sizeVariables]) hs]
  cases sizeFrom .startCount (lookup Environment.startCountVariable) with
  | error fault => rfl
  | ok s =>
    simp only [bind, Except.bind]
    rw [fromVariables_cons (by simp [sizeVariables]) (ha s)]
    cases sizeFrom .maxActive (lookup Environment.maxActiveVariable) with
    | error fault => rfl
    | ok a =>
      simp only [bind, Except.bind]
      rw [fromVariables_cons (by simp [sizeVariables]) (hi s a)]
      cases sizeFrom .maxIdle (lookup Environment.maxIdleVariable) with
      | error fault => rfl
      | ok i =>
        simp [bind, Except.bind, fromVariables, putSize_putSize h, pure, Except.pure, Except.map]

/-! ## The words -/

theorem fromVariables_unset (given : Given) (entries : List (Setting × String)) :
    fromVariables (fun _ => none) given entries = .ok given := by
  induction entries with
  | nil => rfl
  | cons entry rest ih => simpa [fromVariables] using ih

theorem readGiven_stress {words : List String} {script : String} {given : Given}
    (h : readGiven .stress (fun _ => none) words = .ok (script, given)) (hsizes : given.sizes = {})
    (lookup : String → Option ByteArray) :
    readGiven .stress lookup words =
      ((sizesFrom lookup).mapError .fault).map fun sizes => (script, { given with sizes }) := by
  simp only [readGiven, if_true, bind_eq_ok_iff, fromVariables_unset] at h
  obtain ⟨p, hp, q, hq, g, hg, h⟩ := h
  obtain rfl : q.given = g := Except.ok.inj (mapError_eq_ok_iff.1 hg)
  cases hscript : q.given.script with
  | none => simp [hscript, throw, throwThe, MonadExceptOf.throw] at h
  | some path =>
    obtain ⟨rfl, rfl⟩ : path = script ∧ q.given = given := by
      simpa [hscript, pure, Except.pure] using h
    simp only [readGiven, if_true, hp, hq, bind, Except.bind, fromVariables_eq hsizes]
    cases sizesFrom lookup with
    | error fault => rfl
    | ok sizes =>
      simp only [hscript]
      rfl

/-- **The environment only adds sizes to the words of a stress run,** and can only be the reason for
which they are refused by what it says of sizes. -/
theorem readTop_stress {words : List String} {p : Progress} {script : String} {given : Given}
    (h : readTop (fun _ => none) p words = .ok (.stress script given)) (hsizes : given.sizes = {})
    (lookup : String → Option ByteArray) :
    readTop lookup p words =
      ((sizesFrom lookup).mapError .fault).map fun sizes => .stress script { given with sizes } := by
  induction words generalizing p with
  | nil => cases h
  | cons word rest ih =>
    unfold readTop at h ⊢
    split at h
    next => cases h
    next =>
      obtain ⟨q, hq, h⟩ := bind_eq_ok_iff.1 h
      simp [hq, ih h, bind, Except.bind]
    next =>
      obtain ⟨q, hq, h⟩ := bind_eq_ok_iff.1 h
      simp [hq, ih h, bind, Except.bind]
    next =>
      split at h
      next =>
        obtain ⟨_, -, h⟩ := bind_eq_ok_iff.1 h
        cases h
      next =>
        obtain ⟨⟨path, g⟩, hg, h⟩ := bind_eq_ok_iff.1 h
        cases h
        simp only [readGiven_stress hg hsizes lookup]
        cases sizesFrom lookup <;> rfl
      next => cases h

/-! ## The sizes of the pool -/

theorem layered_eq_ok_iff {files : Files} {file : Option String}
    {lookup : String → Option ByteArray} {config : PoolConfig} :
    PoolConfig.layered files file lookup = .ok config ↔
      ∃ sizes, Environment.sizes (Environment.texts lookup) = .ok sizes ∧
        resolve files file sizes = .ok config := by
  -- Whichever way the lowest layer is found, the two go on in the same manner.
  have honto (lowest : Except Error PoolConfig) (check : PoolConfig → Except Error PoolConfig) :
      (lowest >>= fun base => (Environment.override base
          (Environment.texts lookup)).mapError .invalidConfig >>= check) = .ok config ↔
        ∃ sizes, Environment.sizes (Environment.texts lookup) = .ok sizes ∧
          (lowest >>= fun base => check (base.override sizes)) = .ok config := by
    simp only [Environment.override, bind_eq_ok_iff, mapError_eq_ok_iff, map_eq_ok_iff]
    cases Environment.sizes (Environment.texts lookup) <;> simp
  cases file with
  | none => exact honto (pure PoolConfig.default) _
  | some path => exact honto (PoolConfig.ofFile files path) _

variable {files : Files} {lookup : String → Option ByteArray} {words : List String}
  {script : String} {given : Given}

/-- **What a stress run makes of the environment.**  With neither sizes nor `--single` among its words,
it starts a pool exactly if the library accepts the file and the environment and every variable is
plain, and then the sizes are those of the library. -/
theorem poolOf?_eq_some_iff (hwords : read (fun _ => none) words = .ok (.stress script given))
    (hsizes : given.sizes = {}) (hsingle : given.single = false) (config : PoolConfig) :
    poolOf? files lookup words = some config ↔
      PoolConfig.layered files given.config lookup = .ok config ∧ AllPlain lookup := by
  have hplan : poolOf? files lookup words = some config ↔
      ∃ sizes, sizesFrom lookup = .ok sizes ∧ resolve files given.config sizes = .ok config := by
    have hread := readTop_stress hwords hsizes lookup
    cases hfrom : sizesFrom lookup with
    | error fault =>
      rw [hfrom] at hread
      have hread : readTop lookup {} words = .error (.fault fault) := hread
      simp [poolOf?, read, hread]
    | ok sizes =>
      rw [hfrom] at hread
      have hread : readTop lookup {} words = .ok (.stress script { given with sizes }) := hread
      simp only [poolOf?, read, hread, Stress.planOf, hsingle, Bool.false_eq_true, if_false,
        Except.ok.injEq, exists_eq_left']
      cases resolve files given.config sizes <;> simp [Except.map]
  rw [hplan, layered_eq_ok_iff]
  simp only [sizesFrom_eq_ok_iff]
  constructor
  · rintro ⟨sizes, ⟨hs, hplain⟩, h⟩
    exact ⟨⟨sizes, hs, h⟩, hplain⟩
  · rintro ⟨⟨sizes, hs, h⟩, hplain⟩
    exact ⟨sizes, ⟨hs, hplain⟩, h⟩

/-- An environment in which only the most contexts kept idle are given. -/
def keeping (value name : String) : Option ByteArray :=
  if name = Environment.maxIdleVariable then some value.toUTF8 else none

/-- Without any files. -/
def noFiles : Files := fun _ => .error .notFound

theorem allPlain_keeping {value : String} (htext : Text.decode? value.toUTF8 = some value)
    (htrim : Text.trim value = value) : AllPlain (keeping value) := by
  intro entry _ bytes h
  unfold keeping at h
  split at h
  · obtain rfl := Option.some.inj h
    exact ⟨value, htext, htrim⟩
  · cases h

theorem poolOf?_plain_value :
    read (fun _ => none) ["stress", "hooks.lua"] =
        .ok (.stress "hooks.lua" { script := some "hooks.lua" }) ∧
      poolOf? noFiles (keeping "2") ["stress", "hooks.lua"] = some ⟨1, 8, 2⟩ :=
  ⟨rfl, (poolOf?_eq_some_iff rfl rfl rfl _).2 ⟨rfl, allPlain_keeping rfl rfl⟩⟩

/-- **White space makes a difference.**  The library takes `" 2 "` for a size, and a stress run refuses
it, although neither sizes nor `--single` are among its words. -/
theorem padded_value_refused :
    read (fun _ => none) ["stress", "hooks.lua"] =
        .ok (.stress "hooks.lua" { script := some "hooks.lua" }) ∧
      PoolConfig.layered noFiles none (keeping " 2 ") = .ok ⟨1, 8, 2⟩ ∧
        poolOf? noFiles (keeping " 2 ") ["stress", "hooks.lua"] = none ∧
          read (keeping " 2 ") ["stress", "hooks.lua"] =
            .error (.fault (.invalidValue " 2 " .maxIdle .invalidDigit)) :=
  ⟨rfl, rfl, rfl, rfl⟩

end CommandLine
end HookPool
