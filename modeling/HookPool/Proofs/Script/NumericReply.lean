/-
# Numbers as replies

The status that comes of a number which a hook gives, against the number's exact value (`rational?`), a
rational number: an integer is its own value, a finite floating-point number is `± m · 2 ^ q`, and an
infinite one or a NaN has none.

| the value | the reply |
|---|---|
| whole, in 64 bits | the status that is the value |
| whole, but out of range | the status nearest to the value |
| not whole, or none | an error of the hook |

So a status is the number that the hook gave, except beyond both ends of the range
(`State.Gives.numeric`), where the number is moved to that end (`too_large_altered`).
-/
import HookPool.Proofs.Script.Lookup
import Mathlib.Algebra.Order.Field.Rat
import Mathlib.Tactic.NormNum

namespace HookPool

/-! ## Exact values -/

namespace Binary64

variable {x : Binary64} {n : ℤ}

/-- One with the sign of the number. -/
def sign (x : Binary64) : ℤ := if x.isNegative then -1 else 1

/-- The exact value of a finite number. -/
def rational? (x : Binary64) : Option ℚ :=
  if x.isFinite then some (x.sign * x.significand * 2 ^ x.scale) else none

theorem sign_mul_sign (x : Binary64) : x.sign * x.sign = 1 := by
  unfold sign
  split <;> rfl

/-- A quotient is whole exactly if it leaves no remainder. -/
theorem sign_mul_div_eq_iff (x : Binary64) (m : Nat) {unit : Nat} (hunit : 0 < unit) (n : ℤ) :
    (x.sign * m / unit : ℚ) = n ↔ m % unit = 0 ∧ x.sign * (m / unit : Nat) = n := by
  have hq : (unit : ℚ) ≠ 0 := by exact_mod_cast hunit.ne'
  have hwhole : (x.sign * m / unit : ℚ) = n ↔ x.sign * m = n * unit := by
    rw [div_eq_iff hq]
    exact_mod_cast Iff.rfl
  rw [hwhole]
  constructor
  · intro h
    have hm : (m : ℤ) = x.sign * n * unit := by
      rw [mul_assoc, ← h, ← mul_assoc, sign_mul_sign, one_mul]
    have hdvd : unit ∣ m := Int.natCast_dvd_natCast.1 ⟨x.sign * n, by rw [hm, mul_comm]⟩
    refine ⟨Nat.mod_eq_zero_of_dvd hdvd, ?_⟩
    rw [Int.natCast_div, hm, Int.mul_ediv_cancel _ (by exact_mod_cast hunit.ne'), ← mul_assoc,
      sign_mul_sign, one_mul]
  · rintro ⟨hmod, rfl⟩
    have hm : m / unit * unit = m := Nat.div_mul_cancel (Nat.dvd_of_mod_eq_zero hmod)
    rw [mul_assoc, ← Int.natCast_mul, hm]

/-- **The conversion to whole numbers is exact**: it gives the value where this is whole, and nothing
anywhere else. -/
theorem toInt?_eq_some_iff : x.toInt? = some n ↔ x.rational? = some (n : ℚ) := by
  unfold toInt? rational?
  cases hfinite : x.isFinite with
  | false => simp
  | true =>
    simp only [Bool.not_true, Bool.false_eq_true, if_false, if_true, Option.some.injEq]
    change (if 0 ≤ x.scale then some (x.sign * _) else _) = _ ↔ _
    split
    · next hscale =>
      obtain ⟨k, hk⟩ := Int.eq_ofNat_of_zero_le hscale
      rw [hk, Option.some.injEq, Int.toNat_natCast, zpow_natCast, Nat.pow_eq]
      constructor
      · rintro rfl
        push_cast
        exact mul_assoc _ _ _
      · intro h
        rw [mul_assoc] at h
        exact_mod_cast h
    · next hscale =>
      obtain ⟨k, hk⟩ := Int.eq_ofNat_of_zero_le (show 0 ≤ -x.scale by omega)
      have hvalue : (x.sign * x.significand * 2 ^ x.scale : ℚ) =
          x.sign * x.significand / (Nat.pow 2 k : Nat) := by
        rw [show x.scale = -(k : ℤ) by omega, zpow_neg, zpow_natCast, ← div_eq_mul_inv, Nat.pow_eq]
        push_cast
        rfl
      have hunit : 0 < Nat.pow 2 k := Nat.pow_pos (by decide)
      rw [hvalue, sign_mul_div_eq_iff x _ hunit, hk, Int.toNat_natCast]
      change (if _ then some (x.sign * _) else none) = _ ↔ _
      rw [Option.ite_none_right_eq_some, Option.some.injEq]

end Binary64

namespace Script

/-- The exact value of a number, whatever its kind. -/
def Value.rational? : Value → Option ℚ
  | .number (.int n) => some n.toInt
  | .number (.float x) => x.rational?
  | _ => none

namespace State

variable {st : State} {hook : String} {arguments : List HookArg} {v : Value}

/-- Out of range, the end of the range takes the place of a number. -/
theorem toInt_saturated (n : ℤ) :
    (Handed.saturated n).toInt = max Number.least (min Number.greatest n) := by
  have hends : Number.least ≤ Number.greatest := by decide
  have htoInt : ∀ k : ℤ, Number.least ≤ k → k ≤ Number.greatest → (Int64.ofInt k).toInt = k :=
    fun k hl hg => Number.int64?_eq_some_iff.1 (by rw [Number.int64?, if_pos ⟨hl, hg⟩])
  unfold Handed.saturated
  split
  · rw [htoInt _ (le_refl _) hends]
    omega
  · split
    · rw [htoInt _ hends (le_refl _)]
      omega
    · rw [htoInt _ (by omega) (by omega)]
      omega

/-- An argument as a value of the script. -/
def argumentValue (argument : HookArg) : Value := .ofHanded (.ofArgument argument)

/-- A call of the hook with the arguments gives the value as its first result. -/
def Gives (st : State) (hook : String) (arguments : List HookArg) (v : Value) : Prop :=
  ∃ f st' values s, st.lookUp hook = (.ok (some f), st') ∧
    Machine.call f (.table st'.hooks :: arguments.map argumentValue) st'.store = .returned values s ∧
    values.headD .nil = v

/-- The reply of a hook is that for its first result. -/
theorem Gives.reply_eq (h : st.Gives hook arguments v) :
    (invoke st hook arguments).reply? = some (v.handed.reply.mapError (Error.hook hook)) := by
  obtain ⟨f, ⟨store, hooks⟩, values, s, hlookUp, hcall, rfl⟩ := h
  have hvalues : (Handed.table hooks :: arguments.map Handed.ofArgument).map Value.ofHanded =
      .table hooks :: arguments.map argumentValue := by
    rw [List.map_cons, List.map_map]
    rfl
  have hreturned : interpreter.call store f (.table hooks :: arguments.map .ofArgument) =
      (.ok (values.headD .nil).handed, s) := by
    simp only [interpreter, hvalues, hcall]
    rfl
  have hfound : interpreter.lookUp st hook = (.ok (some f), ⟨store, hooks⟩) := hlookUp
  simp only [invoke, Interpreter.invoke, Interpreter.reply?, hfound, Interpreter.callAsMethod,
    hreturned]
  rfl

theorem reply_float (x : Binary64) :
    (Value.number (.float x)).handed.reply =
      match x.toInt? with
      | some n => .ok (.status (Handed.saturated n))
      | none => .error (.badReply "number") := rfl

/-- What the reply is to a number. -/
structure Numeric (hook : String) (v : Value) (reply? : Option (Except Error HookReply)) : Prop where
  /-- An integer is the status. -/
  integer : ∀ n : Int64, v = .int n → reply? = some (.ok (.status n))
  /-- A whole value is the status if there is such a status, and else becomes the end of the range
  that it is beyond. -/
  whole : ∀ n : ℤ, v.rational? = some (n : ℚ) → ∃ code, reply? = some (.ok (.status code)) ∧
    code.toInt = max Number.least (min Number.greatest n)
  /-- A floating-point number without a whole value is an error of the hook. -/
  notWhole : ∀ x, v = .float x → (∀ n : ℤ, x.rational? ≠ some (n : ℚ)) →
    reply? = some (.error (.hook hook (.badReply "number")))
  /-- There is no other way to a status than a number with a whole value, and one in range is the
  status. -/
  only : ∀ code, reply? = some (.ok (.status code)) → ∃ n : ℤ, v.rational? = some (n : ℚ) ∧
    (Number.least ≤ n → n ≤ Number.greatest → code.toInt = n)

/-- **A status is the number that the hook gave**, unless this is beyond the ends of the range. -/
theorem Gives.numeric (h : st.Gives hook arguments v) :
    Numeric hook v (invoke st hook arguments).reply? := by
  rw [h.reply_eq]
  refine ⟨?_, fun n hn => ?_, ?_, fun code hcode => ?_⟩
  · rintro n rfl
    rfl
  · cases v with
    | number x =>
      cases x with
      | int k =>
        have hk : k.toInt = n := by exact_mod_cast Option.some.inj hn
        have hl : Number.least ≤ k.toInt := k.minValue_le_toInt
        have hg : k.toInt ≤ Number.greatest := k.toInt_le
        exact ⟨k, rfl, by omega⟩
      | float x =>
        refine ⟨Handed.saturated n, ?_, toInt_saturated n⟩
        rw [reply_float, Binary64.toInt?_eq_some_iff.2 hn]
        rfl
    | _ => cases hn
  · rintro x rfl hx
    have hnone : x.toInt? = none :=
      Option.eq_none_iff_forall_ne_some.2 fun n hn => hx n (Binary64.toInt?_eq_some_iff.1 hn)
    simp only [Value.float, reply_float, hnone]
    rfl
  · cases v with
    | number x =>
      cases x with
      | int k =>
        obtain rfl : k = code := by simpa [Value.handed, Handed.reply, Except.mapError] using hcode
        exact ⟨k.toInt, rfl, fun _ _ => rfl⟩
      | float x =>
        rw [reply_float] at hcode
        cases hx : x.toInt? with
        | none => simp [hx, Except.mapError] at hcode
        | some n =>
          obtain rfl : Handed.saturated n = code := by simpa [hx, Except.mapError] using hcode
          refine ⟨n, Binary64.toInt?_eq_some_iff.1 hx, fun hl hg => ?_⟩
          rw [toInt_saturated]
          omega
    | _ => simp [Value.handed, Handed.reply, Except.mapError] at hcode

/-- A hook that gives one number back gives that one. -/
theorem gives_withHook (hook : String) (x : Number) (chunk : ByteArray)
    (arguments : List HookArg) :
    (withHook hook (.constantly x) chunk).Gives hook arguments (.number x) := by
  refine ⟨.function 0, withHook hook (.constantly x) chunk, [.number x], _, ?_, call_constantly, rfl⟩
  refine isPassive_withHook.passive.lookUp_ok ?_
  rw [entry_withHook, if_pos rfl]

end State

/-- The script has one hook, which gives one number back. -/
def FunctionBody.isConstant (hook : String) (x : Number) : FunctionBody → Bool
  | .mk 0 true (.mk false [.giveBack [.table [.keyed (.string name) (.function
      (.mk 0 false (.mk false [.giveBack [.number y] 1]))) 1]] 1]) => name = hook.toUTF8 && y = x
  | _ => false

theorem FunctionBody.eq_of_isConstant {hook : String} {x : Number} {body : FunctionBody}
    (h : body.isConstant hook x = true) : body = .withHook hook (.constantly x) := by
  unfold isConstant at h
  split at h
  · simp only [Bool.and_eq_true, decide_eq_true_eq] at h
    obtain ⟨rfl, rfl⟩ := h
    rfl
  · cases h

/-- The text of a script whose hook `getattr` gives a number. -/
def constantText (numeral : String) : ByteArray :=
  ("return \x7b getattr = function() return " ++ numeral ++ " end \x7d").toUTF8

theorem load_constantText {numeral : String} {x : Number}
    (h : ((compile (constantText numeral) "hooks.lua".toUTF8).toOption.map
      (FunctionBody.isConstant "getattr" x)) = some true) :
    load (constantText numeral) "hooks.lua" =
      ⟨[], .ok (.withHook "getattr" (.constantly x) (ChunkName.short "hooks.lua".toUTF8))⟩ := by
  cases hcompile : compile (constantText numeral) "hooks.lua".toUTF8 with
  | error fault =>
    rw [hcompile] at h
    cases h
  | ok body =>
    rw [hcompile] at h
    rw [FunctionBody.eq_of_isConstant (Option.some.inj h)] at hcompile
    exact load_withHook (by decide +kernel) hcompile

/-- The hook gives the floating-point number four: the status is the integer four. -/
theorem State.numeric_four : ∃ st, load (constantText "4.0") "hooks.lua" = ⟨[], .ok st⟩ ∧
    st.Gives "getattr" [] (.float ⟨0x4010000000000000⟩) ∧
    (invoke st "getattr" []).reply? = some (.ok (.status 4)) := by
  have hgives := gives_withHook "getattr" (.float ⟨0x4010000000000000⟩)
    (ChunkName.short "hooks.lua".toUTF8) []
  refine ⟨_, load_constantText (by decide +kernel), hgives, ?_⟩
  obtain ⟨code, hreply, hcode⟩ := hgives.numeric.whole 4
    (Binary64.toInt?_eq_some_iff.1 (by decide +kernel))
  obtain rfl : code = 4 := Int64.toInt_inj.1 hcode
  exact hreply

/-- The hook gives `2 ^ 63`, and the status is one less. -/
theorem State.too_large_altered : ∃ st,
    load (constantText "9223372036854775808.0") "hooks.lua" = ⟨[], .ok st⟩ ∧
    st.Gives "getattr" [] (.float ⟨0x43E0000000000000⟩) ∧
    (Value.float ⟨0x43E0000000000000⟩).rational? = some (2 ^ 63) ∧
    (invoke st "getattr" []).reply? = some (.ok (.status 9223372036854775807)) ∧
    ((9223372036854775807 : Int64).toInt : ℚ) ≠ 2 ^ 63 := by
  have hgives := gives_withHook "getattr" (.float ⟨0x43E0000000000000⟩)
    (ChunkName.short "hooks.lua".toUTF8) []
  have hexact : (Value.float ⟨0x43E0000000000000⟩).rational? = some ((2 ^ 63 : ℤ) : ℚ) :=
    Binary64.toInt?_eq_some_iff.1 (by decide +kernel)
  refine ⟨_, load_constantText (by decide +kernel), hgives, by exact_mod_cast hexact, ?_, ?_⟩
  · rw [hgives.reply_eq]
    decide +kernel
  · rw [show (9223372036854775807 : Int64).toInt = 9223372036854775807 by decide]
    norm_num

end Script
end HookPool
