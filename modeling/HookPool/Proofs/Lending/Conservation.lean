/-
# Contexts are neither lost nor doubled

A move takes contexts from one place to another.  Whatever a context is weighed by that never
changes, its identity and its owner, the contexts that managers and callers have after a move, with
those that ended in it, weigh as much as those that they had before, with those that were made in it
(`Reachable.exchange`).

A turn changes one place and one manager at the most, so that it is enough to weigh these
(`Reachable.turn_conserves`).  The one step that could lose a context is that of a manager of one
which puts it where another one is; that it never does is known from its bounds.
-/
import HookPool.Proofs.Lending.Capacity

namespace HookPool
namespace Lending

variable {σ α β : Type}

theorem total_flatMap (f : β → Nat) (g : α → List β) (xs : List α) :
    total f (xs.flatMap g) = total (fun x => total f (g x)) xs := by
  induction xs with
  | nil => rfl
  | cons x xs ih => rw [List.flatMap_cons, total_append, total_cons, ih]

/-- What of a context never changes: its identity and its owner. -/
def Context.stamp (c : Context σ) : ContextId × Option ManagerId := (c.id, c.owner)

/-- The sum of what stamps weigh. -/
def weigh (g : ContextId × Option ManagerId → Nat) (contexts : List (Context σ)) : Nat :=
  total (fun c => g c.stamp) contexts

section

variable (g : ContextId × Option ManagerId → Nat)

@[simp] theorem weigh_nil : weigh g ([] : List (Context σ)) = 0 :=
  rfl

@[simp] theorem weigh_cons (c : Context σ) (contexts : List (Context σ)) :
    weigh g (c :: contexts) = g c.stamp + weigh g contexts :=
  total_cons _ c contexts

@[simp] theorem weigh_append (contexts rest : List (Context σ)) :
    weigh g (contexts ++ rest) = weigh g contexts + weigh g rest :=
  total_append _ contexts rest

end

/-- The contexts that stand under the number of a manager. -/
def contextsUnder : Option (Manager σ) → List (Context σ)
  | some manager => manager.stock.contexts
  | none => []

/-- The contexts that a turn takes from under a number of `s`, and those that it puts there. -/
def Shift.taken (s : State σ) : Shift σ → List (Context σ)
  | .keep | .number => []
  | .replace m _ => contextsUnder (s.manager? m)

def Shift.brought : Shift σ → List (Context σ)
  | .keep | .number => []
  | .replace _ manager => contextsUnder manager

namespace State

variable {invoke : Invoke σ} {s t : State σ} {mv : Move σ} {i : Nat} {p : Place σ} {u : Upshot σ}
  {m : ManagerId} {M : Manager σ}

/-- The contexts that managers have at hand, and those that callers have in their hands. -/
def contexts (s : State σ) : List (Context σ) :=
  s.managers.flatMap contextsUnder ++ s.places.flatMap Place.contexts

theorem contexts_served (r : Request) (c : Context σ) : (r.served c).contexts = [c] :=
  r.served_induction c (fun _ => rfl) (fun _ _ => rfl)

theorem contexts_firstManager {plan : Plan} {factory : Nat} {built : List (Context σ)}
    (h : built.length = plan.startCount) :
    (firstManager plan factory built).stock.contexts = built := by
  cases plan with
  | pool config => rfl
  | single =>
    obtain ⟨c, rfl⟩ := List.length_eq_one_iff.1 h
    rfl

/-- A caller that comes to a place by an upshot loses no context and doubles none. -/
def Conserves (s : State σ) (p : Place σ) (u : Upshot σ) : Prop :=
  ∀ g, weigh g u.place.contexts + weigh g u.shift.brought + weigh g u.gone =
    weigh g p.contexts + weigh g (u.shift.taken s) + weigh g u.made

theorem Opening.conserves {chosen : Nat} (h : Opening s chosen p u) : s.Conserves p u := by
  intro g
  cases h with
  | lent hm _ _ ho =>
    simp only [contexts_served]
    simp [Shift.taken, Shift.brought, contextsUnder, hm, Place.contexts,
      Stock.contexts_of_offer_lent ho]
  | lentCrash hm _ _ ho =>
    simp [Shift.taken, Shift.brought, contextsUnder, hm, Place.contexts,
      Stock.contexts_of_offer_lent ho, Nat.add_comm]
  | reserved hm _ _ ho =>
    obtain ⟨hnil, -, hnil', -⟩ := Stock.of_offer_reserved ho
    simp [Shift.taken, Shift.brought, contextsUnder, hm, Place.contexts, hnil, hnil']
  | counted hm =>
    simp only [contexts_served]
    simp [Shift.taken, Shift.brought, contextsUnder, hm, Place.contexts]
  | countedCrash hm =>
    simp [Shift.taken, Shift.brought, contextsUnder, hm, Place.contexts, Nat.add_comm]
  | gaveUp hm => simp [Shift.taken, Shift.brought, contextsUnder, hm, Place.contexts]
  | _ => simp [Shift.taken, Shift.brought, Place.contexts]

theorem GivingBack.conserves {chosen : Nat} (h : GivingBack invoke s chosen p u)
    (hput : ∀ m aim c M, p = .returning m aim c → c.owner = some m → s.manager? m = some M →
      (M.stock.vacate.put c).contexts = M.stock.contexts ++ [c]) : s.Conserves p u := by
  intro g
  cases h with
  | kept hm ho _ _ =>
    simp [Shift.taken, Shift.brought, contextsUnder, hm, Place.contexts, hput _ _ _ _ rfl ho hm,
      Nat.add_comm]
  | keptCrash hm _ _ _ =>
    simp [Shift.taken, Shift.brought, contextsUnder, hm, Place.contexts, Nat.add_comm]
  | turnedAway hm _ _ _ =>
    simp [Shift.taken, Shift.brought, contextsUnder, hm, Place.contexts]
  | evicted hm _ =>
    simp [Shift.taken, Shift.brought, contextsUnder, hm, Place.contexts, Nat.add_comm]
  -- a call changes the script of a context, which is no part of its stamp
  | _ => simp [Shift.taken, Shift.brought, Place.contexts, Context.stamp]

theorem Stopping.conserves (h : Stopping s p u) : s.Conserves p u := by
  intro g
  cases h with
  | stopped hm _ => simp [Shift.taken, Shift.brought, contextsUnder, hm, Place.contexts]
  | drained hm =>
    simp [Shift.taken, Shift.brought, contextsUnder, hm, Place.contexts]
    omega
  | drainCrash hm =>
    simp [Shift.taken, Shift.brought, contextsUnder, hm, Place.contexts]
    omega
  | _ => simp [Shift.taken, Shift.brought, Place.contexts]

theorem Making.conserves (h : Making s p u)
    (hnone : ∀ m, 0 < p.warms m → s.manager? m = none) (hmark : p.Marked) :
    s.Conserves p u := by
  intro g
  cases h with
  | made hl =>
    have hlen := Nat.le_antisymm hmark.2.1 hl
    simp [Shift.taken, Shift.brought, contextsUnder, hnone, Place.contexts,
      contexts_firstManager hlen]
  | warmCrash => simp [Shift.taken, Shift.brought, Place.contexts, Nat.add_comm]
  | _ => simp [Shift.taken, Shift.brought, Place.contexts]

theorem Beginning.conserves {operation : Operation} (h : Beginning s operation p u) :
    s.Conserves p u := by
  intro g
  cases h with
  | drops hm _ _ => simp [Shift.taken, Shift.brought, contextsUnder, hm, Place.contexts]
  | _ => simp [Shift.taken, Shift.brought, Place.contexts]

theorem Dealing.conserves {handling : Handling} (h : Dealing s handling p u) :
    s.Conserves p u := by
  intro g
  cases h <;> simp [Shift.taken, Shift.brought, Place.contexts]

/-- **A turn loses no context and doubles none.** -/
theorem Reachable.turn_conserves (hs : Reachable invoke s)
    (h : Turn invoke s i mv (s.placeOf i) u) : s.Conserves (s.placeOf i) u := by
  have hr := hs.registered
  have hmark := hr.marked_placeOf i
  obtain ⟨p, hp⟩ : ∃ p, s.placeOf i = p := ⟨_, rfl⟩
  rw [hp] at h hmark ⊢
  cases h with
  | opening h => exact h.conserves
  | givingBack h =>
    refine h.conserves fun m aim c M hreturn ho hM => ?_
    -- the context that comes back is one of those that the manager has lent
    have hheld := placeOf_le_total (s := s) (f := Place.holds m) rfl i
    rw [hp, hreturn, Place.holds, if_pos ho] at hheld
    exact (hs.bounded hM fun _ => false).contexts_put hheld c
  | stopping h => exact h.conserves
  | making h =>
    refine h.conserves (fun m hw => ?_) hmark
    have hwarms := placeOf_le_total (s := s) (f := Place.warms m) rfl i
    rw [hp] at hwarms
    exact (hr.unborn m (Nat.lt_of_lt_of_le hw hwarms)).2.1
  | beginning h => exact h.conserves
  | dealing h => exact h.conserves
  | works => exact fun g => by simp [Shift.taken, Shift.brought, Place.contexts, Context.stamp]
  | rousing => exact fun g => by simp [Shift.taken, Shift.brought, Place.contexts]

/-! ## Moves -/

/-- Between two states `made` contexts were made and those in `gone` have ended; all others are
there as before, whoever has them. -/
structure Exchange (s t : State σ) (made gone : List (Context σ)) : Prop where
  contexts : ∀ g, weigh g t.contexts + weigh g gone = weigh g s.contexts + weigh g made
  contextsMade : t.contextsMade = s.contextsMade + made.length
  ended : t.ended = (gone.map Context.id).reverse ++ s.ended

theorem weigh_contexts (g : ContextId × Option ManagerId → Nat) (s : State σ) :
    weigh g s.contexts = total (fun o => weigh g (contextsUnder o)) s.managers +
      total (fun p => weigh g p.contexts) s.places := by
  rw [contexts, weigh_append, weigh, weigh, total_flatMap, total_flatMap]
  rfl

/-- What managers have at hand changes by what a turn takes and brings. -/
theorem Follows.weigh_managers (h : s.Follows t i u)
    (hn : ∀ m manager, u.shift = .replace m manager → s.Numbered m)
    (g : ContextId × Option ManagerId → Nat) :
    Lending.total (fun o => weigh g (contextsUnder o)) t.managers + weigh g (u.shift.taken s) =
      Lending.total (fun o => weigh g (contextsUnder o)) s.managers + weigh g u.shift.brought := by
  rw [h.managers]
  cases hs : u.shift with
  | keep => rfl
  | number => simp [shifted, total_append, total_cons, total_nil, contextsUnder, Shift.taken,
      Shift.brought]
  | replace m manager =>
    exact total_set _ (hn m manager hs).getElem? manager

/-- **A turn is an exchange of contexts.** -/
theorem Reachable.turn_exchange (hs : Reachable invoke s) (hi : i ≤ s.places.length)
    (hu : Turn invoke s i mv (s.placeOf i) u) (hf : s.Follows t i u) :
    s.Exchange t u.made u.gone := by
  refine ⟨fun g => ?_, hf.contextsMade, hf.ended⟩
  have hturn := hs.turn_conserves hu g
  have hmanagers := hf.weigh_managers (fun _ _ h => hs.registered.numbered hu h) g
  have hplaces := hf.total hi (f := fun p => weigh g p.contexts) (fun _ => rfl) rfl
  rw [weigh_contexts, weigh_contexts]
  omega

/-- Contexts get their numbers one after the other. -/
theorem Turn.made_next (h : Turn invoke s i mv p u) :
    u.made = [] ∨ ∃ c, u.made = [c] ∧ c.id = s.nextContext := by
  have hborn : ∀ {cs : List (Context σ)}, Stillborn s cs →
      cs = [] ∨ ∃ c, cs = [c] ∧ c.id = s.nextContext := by
    rintro cs (_ | hc)
    · exact .inl rfl
    · exact .inr ⟨_, rfl, hc⟩
  cases h with
  | opening h =>
    cases h with
    | built _ _ hc => exact .inr ⟨_, rfl, hc⟩
    | buildCrash _ _ hb => exact hborn hb
    | _ => exact .inl rfl
  | making h =>
    cases h with
    | warmed _ _ hc => exact .inr ⟨_, rfl, hc⟩
    | warmCrash _ _ hb => exact hborn hb
    | created _ hc _ => exact .inr ⟨_, rfl, hc⟩
    | createCrash _ hb => exact hborn hb
    | _ => exact .inl rfl
  | givingBack h => cases h <;> exact .inl rfl
  | stopping h => cases h <;> exact .inl rfl
  | beginning h => cases h <;> exact .inl rfl
  | dealing h => cases h <;> exact .inl rfl
  | works => exact .inl rfl
  | rousing => exact .inl rfl

/-- **Every move is an exchange of contexts** in which one is made at the most, and that one gets
the next number. -/
theorem Reachable.exchange (hs : Reachable invoke s) (h : s.move invoke mv = some t) :
    ∃ made gone, s.Exchange t made gone ∧
      (made = [] ∨ ∃ c, made = [c] ∧ c.id = s.nextContext) := by
  obtain ⟨i, u, hi, hu, hf⟩ | hidle := move_turn h
  · exact ⟨u.made, u.gone, hs.turn_exchange hi hu hf, hu.made_next⟩
  · refine ⟨[], [], ⟨fun g => ?_, hidle.contextsMade, hidle.ended⟩, .inl rfl⟩
    rw [weigh_contexts, weigh_contexts, hidle.managers, hidle.places]

end State
end Lending
end HookPool
