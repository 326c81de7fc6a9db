/-
# Calls that take turns with the contexts of a pool

If callers call hooks one after the other, nobody has a context between two calls, and what a pool
does is seen from its books alone: a call takes the first context at hand, or has one built, and
gives it back, to be kept behind the others or to be destroyed.  `Rounds` are such calls, with the
script that each one finds.

| the pool keeps | starts with | after `n` calls |
|---|---|---|
| nothing | `s` contexts | what was at hand is destroyed first, then each context that is built |
| some | none | the one that the first call has built is used again |
| some | `s` contexts | those too many are destroyed, one by one, then the others take turns |

The order in which contexts are used is `rota`, and `rotaAt` is the place in the first row of the
context that is used at a time (`getElem?_rota`).
-/
import Mathlib.Data.List.Rotate
import HookPool.Proofs.Lending.Books
import HookPool.Proofs.Lending.Serial

namespace HookPool
namespace Lending

variable {σ α : Type}

/-! ## Taking turns -/

/-- Who is served at `n` times from a row, the one in front first: it goes to the end of the row if
fewer than `keep` are left, and else it goes for good. -/
def rota (keep : Nat) : List α → Nat → List α
  | _, 0 => []
  | [], _ + 1 => []
  | x :: rest, n + 1 => x :: rota keep (if rest.length < keep then rest ++ [x] else rest) n

/-- Only those in the row are served. -/
theorem mem_of_mem_rota {keep n : Nat} {row : List α} {x : α} (h : x ∈ rota keep row n) :
    x ∈ row := by
  induction n generalizing row with
  | zero => cases h
  | succ n ih =>
    cases row with
    | nil => cases h
    | cons y rest =>
      obtain rfl | h := List.mem_cons.1 h
      · exact List.mem_cons_self ..
      · have hmem := ih h
        split at hmem
        · exact (List.mem_append.1 hmem).elim (List.mem_cons_of_mem _)
            fun hmem => List.mem_singleton.1 hmem ▸ List.mem_cons_self ..
        · exact List.mem_cons_of_mem _ hmem

/-- Where in a row of `length` the one stands that is served at the time `k`, from zero: those that
go for good are served first, in their order, and then the others take turns. -/
def rotaAt (keep length k : Nat) : Nat :=
  let surplus := length - min length keep
  if k < surplus then k else surplus + (k - surplus) % (length - surplus)

/-- A row from which nobody goes has another one in front each time. -/
theorem rotaAt_of_le {keep length : Nat} (h : length ≤ keep) (k : Nat) :
    rotaAt keep length k = k % length := by
  simp only [rotaAt, Nat.min_eq_left h, Nat.sub_self, Nat.not_lt_zero, if_false, Nat.zero_add,
    Nat.sub_zero]

/-- **Whoever is in front goes for good while the row is too long.** -/
theorem rotaAt_succ {keep length : Nat} (h : keep ≤ length) (k : Nat) :
    rotaAt keep (length + 1) (k + 1) = rotaAt keep length k + 1 := by
  have hlong : length + 1 - min (length + 1) keep = length - min length keep + 1 := by omega
  simp only [rotaAt, hlong]
  by_cases hk : k < length - min length keep
  · rw [if_pos hk, if_pos (by omega)]
  · rw [if_neg hk, if_neg (by omega), Nat.add_sub_add_right, Nat.add_sub_add_right]
    omega

/-- **Who is served at a time.** -/
theorem getElem?_rota {keep : Nat} (hkeep : 1 ≤ keep) {row : List α} (hrow : row ≠ []) {k n : Nat}
    (hk : k < n) : (rota keep row n)[k]? = row[rotaAt keep row.length k]? := by
  induction n generalizing row k with
  | zero => exact absurd hk (Nat.not_lt_zero k)
  | succ n ih =>
    obtain ⟨x, rest, rfl⟩ := List.exists_cons_of_ne_nil hrow
    rw [rota, List.length_cons]
    cases k with
    | zero =>
      have hfirst : rotaAt keep (rest.length + 1) 0 = 0 := by
        simp only [rotaAt]
        split
        · rfl
        · rw [Nat.zero_sub, Nat.zero_mod]
          omega
      rw [hfirst]
      rfl
    | succ k =>
      rw [List.getElem?_cons_succ]
      split
      · rename_i hshort
        have hrotate : rest ++ [x] = (x :: rest).rotate 1 := by simp
        rw [ih (by simp) (Nat.lt_of_succ_lt_succ hk), hrotate, List.length_rotate,
          List.length_cons, rotaAt_of_le hshort, rotaAt_of_le hshort,
          List.getElem?_rotate (by simpa using Nat.mod_lt k (Nat.succ_pos rest.length)),
          List.length_cons, Nat.mod_add_mod]
      · rename_i hlong
        have hrest : rest ≠ [] := by
          rintro rfl
          exact hlong hkeep
        rw [ih hrest (Nat.lt_of_succ_lt_succ hk), rotaAt_succ (Nat.le_of_not_lt hlong),
          List.getElem?_cons_succ]

/-! ## Books between calls -/

namespace Books

/-- A context comes back whose slot is free again. -/
def back (config : PoolConfig) (B : Books σ) (c : Context σ) : Books σ :=
  if B.idle.length < config.maxIdle then { B with idle := B.idle ++ [c] }
  else { B with destroyed := B.destroyed + 1 }

/-- A context is taken from the books, or built if none is at hand. -/
inductive Lends (B : Books σ) : Context σ → Books σ → Prop where
  | atHand {c : Context σ} {rest : List (Context σ)} (h : B.idle = c :: rest) :
    Lends B c { B with idle := rest }
  | built {c : Context σ} (h : B.idle = []) : Lends B c { B with created := B.created + 1 }

/-- **As many slots are taken after a call as before.** -/
theorem Lends.active_back {B B₁ : Books σ} {c : Context σ} (h : B.Lends c B₁) (config : PoolConfig)
    (d : Context σ) : (B₁.back config d).active = B.active := by
  rw [back]
  cases h <;> split <;> rfl

/-- What a pool with the books tells of itself. -/
def stats (config : PoolConfig) (B : Books σ) : Stats :=
  ⟨B.active, B.idle.length, B.created, B.destroyed, config.maxActive, config.maxIdle⟩

end Books

/-- What a pool tells of itself that has just been made and on which `n` calls have been made one
after the other. -/
def statsAfter (config : PoolConfig) (n : Nat) : Stats :=
  let start := config.startCount
  let surplus := start - min start config.maxIdle
  if config.maxIdle = 0 then
    ⟨0, start - min start n, max start n, n, config.maxActive, config.maxIdle⟩
  else if start = 0 then
    ⟨0, min n 1, min n 1, 0, config.maxActive, config.maxIdle⟩
  else
    ⟨0, start - min n surplus, start, min n surplus, config.maxActive, config.maxIdle⟩

/-- **Calls that are made one after the other on a pool**, from its books before to those after. -/
inductive Rounds (invoke : Invoke σ) (config : PoolConfig) :
    Books σ → List Service → Books σ → Prop where
  | nil {B : Books σ} : Rounds invoke config B [] B
  | cons {B B₁ B' : Books σ} {c : Context σ} {call : Service} {calls : List Service}
    (hl : B.Lends c B₁) (hc : call.context = c.id)
    (ho : call.result = some (invoke c.script call.hook call.arguments).outcome)
    (h : Rounds invoke config (B₁.back config (c.after invoke call.hook call.arguments)) calls B') :
    Rounds invoke config B (call :: calls) B'

namespace Rounds

variable {invoke : Invoke σ} {config : PoolConfig} {B B' : Books σ} {calls : List Service}

/-- Calls leave as many slots taken as before. -/
theorem active (h : Rounds invoke config B calls B') : B'.active = B.active := by
  induction h with
  | nil => rfl
  | cons hl hc ho h ih => rw [ih, hl.active_back]

/-- **A pool that keeps nothing** destroys a context at each call. -/
theorem of_none_kept (h : Rounds invoke config B calls B') (hnone : config.maxIdle = 0) :
    B'.destroyed = B.destroyed + calls.length ∧
      B'.created = B.created + (calls.length - B.idle.length) ∧
        B'.idle.length = B.idle.length - calls.length := by
  induction h with
  | nil => simp
  | cons hl hc ho h ih =>
    simp only [Books.back, hnone, Nat.not_lt_zero, if_false] at ih
    cases hl with
    | atHand hidle =>
      simp only [hidle, List.length_cons] at ih ⊢
      omega
    | built hidle =>
      simp only [hidle, List.length_cons, List.length_nil] at ih ⊢
      omega

/-- **A pool that keeps some of its contexts** builds none, and destroys those too many. -/
theorem of_some_kept (h : Rounds invoke config B calls B') (hsome : 1 ≤ config.maxIdle)
    (hidle : B.idle ≠ []) :
    B'.destroyed =
        B.destroyed + min calls.length (B.idle.length - min B.idle.length config.maxIdle) ∧
      B'.created = B.created ∧ B'.idle.length + B'.destroyed = B.idle.length + B.destroyed := by
  induction h with
  | nil => simp
  | @cons B B₁ B' c call calls hl hc ho h ih =>
    cases hl with
    | built hnil => exact absurd hnil hidle
    | @atHand rest hrow =>
      simp only [Books.back, hrow, List.length_cons] at ih ⊢
      split at ih
      · have := ih (by simp)
        simp only [List.length_append, List.length_singleton] at this
        omega
      · rename_i hlong
        have := ih fun hnil : rest = [] => hlong (by rw [hnil]; exact hsome)
        dsimp only at this
        omega

/-- **A pool that has nothing at first** builds a single context, and keeps it. -/
theorem of_one_kept (h : Rounds invoke config B calls B') (hsome : 1 ≤ config.maxIdle)
    (hidle : B.idle = []) :
    B'.destroyed = B.destroyed ∧ B'.created = B.created + min calls.length 1 ∧
      B'.idle.length = min calls.length 1 := by
  cases h with
  | nil => simp [hidle]
  | @cons _ B₁ _ c call calls hl hc ho h =>
    cases hl with
    | atHand hrow => rw [hidle] at hrow; cases hrow
    | built =>
      simp only [Books.back, hidle, List.length_nil, if_pos (Nat.lt_of_succ_le hsome)] at h
      have := h.of_some_kept hsome (by simp)
      simp only [List.nil_append, List.length_cons, List.length_nil] at this ⊢
      omega

/-- **What a new pool tells of itself after calls**, in closed form. -/
theorem stats {built : List (Context σ)}
    (h : Rounds invoke config ⟨0, built, built.length, 0⟩ calls B')
    (hl : built.length = config.startCount) : B'.stats config = statsAfter config calls.length := by
  have hactive := h.active
  unfold Books.stats statsAfter
  dsimp only at hactive ⊢
  rw [hactive, ← hl]
  by_cases hnone : config.maxIdle = 0
  · have := h.of_none_kept hnone
    dsimp only at this
    rw [if_pos hnone, Stats.mk.injEq]
    omega
  rw [if_neg hnone]
  have hsome : 1 ≤ config.maxIdle := Nat.pos_of_ne_zero hnone
  by_cases hbuilt : built = []
  · have := h.of_one_kept hsome hbuilt
    simp only [hbuilt, List.length_nil] at this
    rw [hbuilt, if_pos List.length_nil, Stats.mk.injEq]
    omega
  · have hpos := List.length_pos_of_ne_nil hbuilt
    have := h.of_some_kept hsome hbuilt
    dsimp only at this
    rw [if_neg (Nat.ne_of_gt hpos), Stats.mk.injEq]
    omega

/-- **Which context serves each call.** -/
theorem contexts (h : Rounds invoke config B calls B') (hsome : 1 ≤ config.maxIdle)
    (hidle : B.idle ≠ []) : calls.map Service.context =
      rota config.maxIdle (B.idle.map Context.id) calls.length := by
  induction h with
  | nil => rfl
  | @cons B B₁ B' c call calls hl hc ho h ih =>
    cases hl with
    | built hnil => exact absurd hnil hidle
    | @atHand rest hrow =>
      rw [hrow, List.map_cons, List.length_cons, List.map_cons, rota, hc, List.length_map]
      simp only [Books.back] at ih
      split at ih
      · rename_i hshort
        rw [ih (by simp), if_pos hshort, List.map_append]
        rfl
      · rename_i hlong
        rw [ih fun hnil : rest = [] => hlong (by rw [hnil]; exact hsome), if_neg hlong]

/-- A context that was not at hand before serves no call. -/
theorem unserved (h : Rounds invoke config B calls B') (hsome : 1 ≤ config.maxIdle)
    (hidle : B.idle ≠ []) {id : ContextId} (hid : id ∉ B.idle.map Context.id) :
    calls.filter (·.context = id) = [] := by
  refine State.filter_eq_nil_of_context _ fun call hcall he => hid ?_
  have hmem := List.mem_map_of_mem (f := Service.context) hcall
  rw [h.contexts hsome hidle, he] at hmem
  exact mem_of_mem_rota hmem

/-- **Each context finds its script as its last call has left it.** -/
theorem serial (h : Rounds invoke config B calls B') (hsome : 1 ≤ config.maxIdle)
    (hidle : B.idle ≠ []) (hids : (B.idle.map Context.id).Nodup) (t : State σ) {d : Context σ}
    (hd : d ∈ B.idle) :
    State.Serial invoke t d.script (calls.filter (·.context = d.id)) := by
  induction h generalizing d with
  | nil => trivial
  | @cons B B₁ B' c call calls hl hc ho h ih =>
    cases hl with
    | built hnil => exact absurd hnil hidle
    | @atHand rest hrow =>
      rw [hrow] at hids hd
      obtain ⟨hnew, hrest⟩ := List.nodup_cons.1 hids
      -- the context is behind the others at hand, or none of the calls that are left gets it
      obtain ⟨hback, hothers⟩ : State.Serial invoke t (invoke c.script call.hook
          call.arguments).script (calls.filter (·.context = c.id)) ∧
          ∀ d ∈ rest, State.Serial invoke t d.script (calls.filter (·.context = d.id)) := by
        simp only [Books.back] at h ih
        split at h
        · rename_i hshort
          rw [if_pos hshort] at ih
          have hids' : ((rest ++ [c.after invoke call.hook call.arguments]).map
              Context.id).Nodup := by
            rw [List.map_append]
            exact (List.perm_append_singleton _ _).nodup_iff.2 hids
          have hserial := fun d hd => ih (d := d) (by simp) hids' hd
          exact ⟨hserial (c.after invoke call.hook call.arguments) (by simp),
            fun d hd => hserial d (List.mem_append_left _ hd)⟩
        · rename_i hlong
          rw [if_neg hlong] at ih
          have hleft : rest ≠ [] := fun hnil => hlong (by rw [hnil]; exact hsome)
          refine ⟨?_, fun d hd => ih hleft hrest hd⟩
          rw [h.unserved hsome hleft hnew]
          trivial
      rcases List.mem_cons.1 hd with rfl | hd
      · rw [List.filter_cons, if_pos (decide_eq_true hc)]
        exact .inl ⟨ho, hback⟩
      · have hne : call.context ≠ d.id := fun he =>
          hnew (hc ▸ he ▸ List.mem_map_of_mem hd)
        rw [List.filter_cons, if_neg (by simpa using hne)]
        exact hothers d hd

end Rounds
end Lending
end HookPool
