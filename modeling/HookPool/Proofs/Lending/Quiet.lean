/-
# While the sink does not panic

A caller comes to grief if the sink panics at something that it reports, or if a factory takes it
along.  Whatever is reported either is only recorded, or the sink panics and is armed no more
(`Tells`); so it has not panicked if it is still armed (`Spares`).

A sink that is not armed only records what is reported to it, so that whatever ends or is given back
does so in one way only.
-/
import HookPool.Proofs.Lending.Moves

namespace HookPool
namespace Lending

variable {σ : Type}

namespace State

variable {invoke : Invoke σ} {s t : State σ} {m : ManagerId} {M : Manager σ} {i chosen : Nat}

/-! ## The sink -/

/-- The sink has not panicked from `s` to `t`: it is still armed, if it was armed before. -/
def Spares (s t : State σ) : Prop :=
  t.armed = none → s.armed = none

@[simp] theorem armed_finish (s : State σ) (i : Nat) (o : Outcome) :
    (s.finish i o).armed = s.armed :=
  armed_put s i _

@[simp] theorem armed_crash (s : State σ) (i : Nat) : (s.crash i).armed = s.armed :=
  armed_put s i _

@[simp] theorem armed_setManager (s : State σ) (m : ManagerId) (manager : Option (Manager σ)) :
    (s.setManager m manager).armed = s.armed := rfl

@[simp] theorem armed_onManager (s : State σ) (m : ManagerId) (f : Manager σ → Manager σ) :
    (s.onManager m f).armed = s.armed := by
  unfold onManager
  split <;> rfl

@[simp] theorem armed_wakeOne (s : State σ) (m : ManagerId) (chosen : Nat) :
    (s.wakeOne m chosen).armed = s.armed := by
  rw [wakeOne_eq]

@[simp] theorem armed_record (s : State σ) (e : Event) : (s.record e).armed = s.armed := rfl

@[simp] theorem armed_print (s : State σ) (lines : List ByteArray) :
    (s.print lines).armed = s.armed := rfl

@[simp] theorem armed_wreck (s : State σ) (c : Context σ) : (s.wreck c).armed = s.armed := rfl

@[simp] theorem armed_wreckAll (s : State σ) (contexts : List (Context σ)) :
    (s.wreckAll contexts).armed = s.armed := by
  unfold wreckAll
  induction contexts generalizing s with
  | nil => rfl
  | cons c rest ih => exact ih (s.wreck c)

theorem Spares.of_armed {u : State σ} (h : Spares s u) (ht : t.armed = s.armed) : Spares t u :=
  fun hu => ht.trans (h hu)

/-- Something that is reported in `s` leads to `t`, or the sink panics at it and is armed no
more. -/
def Tells (s t : State σ) (r : State σ × Bool) : Prop :=
  r = (t, false) ∨ s.armed ≠ none ∧ ∃ u, r = (u, true) ∧ u.armed = none

theorem report_tells (s : State σ) (e : Event) : Tells s (s.record e) (s.report e) := by
  unfold report
  cases ha : s.armed with
  | none => exact .inl rfl
  | some text =>
    dsimp only
    split
    · exact .inr ⟨by simp [ha], _, rfl, rfl⟩
    · exact .inl rfl

theorem reportFor_tells (s : State σ) (unwinding : Bool) (e : Event) :
    Tells s (s.record e) (s.reportFor unwinding e) := by
  cases unwinding with
  | true => exact .inl rfl
  | false => exact report_tells s e

theorem destroyFor_tells (s : State σ) (unwinding : Bool) (c : Context σ) :
    Tells s (s.wreck c) (s.destroyFor unwinding c) :=
  reportFor_tells s unwinding _

theorem destroyAll_tells (s : State σ) (contexts : List (Context σ)) :
    Tells s (s.wreckAll contexts) (s.destroyAll contexts) := by
  induction contexts generalizing s with
  | nil => exact .inl rfl
  | cons c rest ih =>
    rw [destroyAll, destroy]
    obtain hr | ⟨ha, u, hr, hu⟩ := destroyFor_tells s false c
    · rw [hr]
      exact ih (s.wreck c)
    · rw [hr]
      exact .inr ⟨ha, _, rfl, by simpa using hu⟩

/-- The state in which a context was counted as destroyed and has ended. -/
def discarded (s : State σ) (m : ManagerId) (M : Manager σ) (c : Context σ) : State σ :=
  State.wreck (bif M.stock.isPool then
    (s.setManager m (some (M.countDestroyed 1))).record (.evicted m c.id)
    else s.setManager m (some (M.countDestroyed 1))) c

theorem managers_discarded (s : State σ) (m : ManagerId) (M : Manager σ) (c : Context σ) :
    (s.discarded m M c).managers = (s.setManager m (some (M.countDestroyed 1))).managers := by
  unfold discarded
  cases M.stock.isPool <;> rfl

theorem armed_discarded (s : State σ) (m : ManagerId) (M : Manager σ) (c : Context σ) :
    (s.discarded m M c).armed = s.armed := by
  unfold discarded
  cases M.stock.isPool <;> rfl

theorem discard_tells (s : State σ) (unwinding : Bool) (m : ManagerId) (M : Manager σ)
    (c : Context σ) : Tells s (s.discarded m M c) (s.discard unwinding m M c) := by
  have hs : (s.setManager m (some (M.countDestroyed 1))).armed = s.armed := rfl
  unfold discard discarded
  dsimp only
  generalize s.setManager m (some (M.countDestroyed 1)) = t at hs ⊢
  cases M.stock.isPool with
  | true =>
    rw [if_pos rfl, cond_true]
    obtain hr | ⟨ha, u, hr, hu⟩ := reportFor_tells t unwinding (.evicted m c.id)
    · rw [hr]
      obtain hd | ⟨ha, h⟩ := destroyFor_tells (t.record (.evicted m c.id)) unwinding c
      · exact .inl hd
      · exact .inr ⟨by rwa [← hs], h⟩
    · rw [hr]
      exact .inr ⟨by rwa [← hs], _, rfl, hu⟩
  | false =>
    rw [if_neg Bool.false_ne_true, cond_false]
    obtain hd | ⟨ha, h⟩ := destroyFor_tells t unwinding c
    · exact .inl hd
    · exact .inr ⟨by rwa [← hs], h⟩

/-! ## Reports to a sink that is not armed -/

theorem Tells.unarmed {r : State σ × Bool} (h : Tells s t r) (ha : s.armed = none) :
    r = (t, false) :=
  h.resolve_right fun hr => hr.1 ha

theorem report_unarmed (h : s.armed = none) (e : Event) : s.report e = (s.record e, false) :=
  (report_tells s e).unarmed h

theorem reportFor_unarmed (h : s.armed = none) (unwinding : Bool) (e : Event) :
    s.reportFor unwinding e = (s.record e, false) :=
  (reportFor_tells s unwinding e).unarmed h

theorem destroyFor_unarmed (h : s.armed = none) (unwinding : Bool) (c : Context σ) :
    s.destroyFor unwinding c = (s.wreck c, false) :=
  (destroyFor_tells s unwinding c).unarmed h

theorem destroyAll_unarmed (h : s.armed = none) (contexts : List (Context σ)) :
    s.destroyAll contexts = (s.wreckAll contexts, false) :=
  (destroyAll_tells s contexts).unarmed h

theorem discard_unarmed (h : s.armed = none) (unwinding : Bool) (m : ManagerId) (M : Manager σ)
    (c : Context σ) : s.discard unwinding m M c = (s.discarded m M c, false) :=
  (discard_tells s unwinding m M c).unarmed h

/-! ## What is left alone -/

/-- Asking a factory leaves what it makes as it is. -/
theorem map_product_set {makers : List (Factory σ)} {maker : Factory σ} {factory : Nat}
    (h : makers[factory]? = some maker) (asked : Nat) :
    (makers.set factory { maker with asked }).map Factory.product = makers.map Factory.product := by
  rw [List.map_set]
  refine List.ext_getElem? fun j => ?_
  rw [List.getElem?_set]
  split
  · rename_i hj
    have hlt := (List.getElem?_eq_some_iff.1 h).1
    rw [if_pos (by rwa [List.length_map]), ← hj, List.getElem?_map, h, Option.map_some]
  · rfl

/-- The sink is not armed, the factories make what they made before, and nobody has come. -/
structure Undisturbed (s t : State σ) : Prop where
  unarmed : t.armed = none
  products : t.factories.map Factory.product = s.factories.map Factory.product
  length : t.places.length = s.places.length

namespace Undisturbed

theorem refl (h : s.armed = none) : Undisturbed s s := ⟨h, rfl, rfl⟩

theorem trans {u : State σ} (h : Undisturbed s t) (h' : Undisturbed t u) : Undisturbed s u :=
  ⟨h'.unarmed, h'.products.trans h.products, h'.length.trans h.length⟩

theorem record (h : Undisturbed s t) (e : Event) : Undisturbed s (t.record e) :=
  ⟨h.unarmed, h.products, h.length⟩

theorem wreck (h : Undisturbed s t) (c : Context σ) : Undisturbed s (t.wreck c) :=
  h.record _

theorem wreckAll (h : Undisturbed s t) (contexts : List (Context σ)) :
    Undisturbed s (t.wreckAll contexts) := by
  unfold State.wreckAll
  induction contexts generalizing t with
  | nil => exact h
  | cons c rest ih => exact ih (h.wreck c)

theorem print (h : Undisturbed s t) (lines : List ByteArray) : Undisturbed s (t.print lines) :=
  ⟨h.unarmed, h.products, h.length⟩

theorem setManager (h : Undisturbed s t) (m : ManagerId) (manager : Option (Manager σ)) :
    Undisturbed s (t.setManager m manager) :=
  ⟨h.unarmed, h.products, h.length⟩

theorem onManager (h : Undisturbed s t) (m : ManagerId) (f : Manager σ → Manager σ) :
    Undisturbed s (t.onManager m f) := by
  unfold State.onManager
  split
  · exact h.setManager m _
  · exact h

theorem discarded (h : Undisturbed s t) (m : ManagerId) (M : Manager σ) (c : Context σ) :
    Undisturbed s (t.discarded m M c) := by
  unfold State.discarded
  cases M.stock.isPool
  · exact (h.setManager m _).wreck c
  · exact ((h.setManager m _).record _).wreck c

theorem wakeOne (h : Undisturbed s t) (m : ManagerId) (chosen : Nat) :
    Undisturbed s (t.wakeOne m chosen) := by
  unfold State.wakeOne
  dsimp only
  split
  · exact ⟨h.unarmed, h.products, (List.length_modify ..).trans h.length⟩
  · exact h

end Undisturbed

/-! ## Returns -/

/-- **A return that is over finishes its caller with the verdict.** -/
theorem conclude_unarmed (h : s.armed = none) (i : Nat) (aim : Aim) (result : Except Error Unit) :
    ∃ t, s.conclude i aim result = State.put t i (.finished (aim.verdict result)) ∧
      Aside s t 0 [] ∧ Undisturbed s t := by
  have hs := Undisturbed.refl h
  unfold conclude
  split
  · exact ⟨s, rfl, .refl s, hs⟩
  · exact ⟨s, rfl, .refl s, hs⟩
  · exact ⟨s, rfl, .refl s, hs⟩
  · exact ⟨s, rfl, .refl s, hs⟩
  · rename_i reply e
    cases reply <;> exact ⟨s, rfl, .refl s, hs⟩
  · exact ⟨s, rfl, .refl s, hs⟩
  · rw [report_unarmed h]
    exact ⟨_, rfl, record_aside s _, hs.record _⟩
  · exact ⟨s, rfl, .refl s, hs⟩
  · exact ⟨_, rfl, record_aside s _, hs.record _⟩

/-- A context that the manager has room for is kept. -/
theorem takeBack_kept {aim : Aim} {c : Context σ} (h : s.armed = none) (hk : M.keeps = true) :
    s.takeBack i m aim c M chosen =
      ((((s.setManager m (some (M.withStock M.stock.vacate))).record
        (keptEvent m M.stock.vacate c)).setManager m
          (some (M.withStock (M.stock.vacate.put c)))).wakeOne m chosen).put i
            (.finished (aim.verdict (.ok ()))) := by
  rw [takeBack, if_pos hk, reportFor_unarmed (by exact h)]
  exact conclude_ok _ i aim

/-- A context that a pool has no room for is about to be destroyed. -/
theorem takeBack_spurned {aim : Aim} {c : Context σ} (hk : M.keeps = false)
    (hpool : M.stock.vacate.isPool = true) : s.takeBack i m aim c M chosen =
      ((s.setManager m (some (M.withStock M.stock.vacate))).wakeOne m chosen).put i
        (.evicting m aim c) := by
  rw [takeBack, if_neg (by rw [hk]; exact Bool.false_ne_true)]
  exact if_pos hpool

/-- **A context that a sound manager takes back is at hand again, or about to be destroyed.** -/
theorem takeBack_unarmed (h : s.armed = none) (i : Nat) (m : ManagerId) (aim : Aim)
    (c : Context σ) (M : Manager σ) (chosen : Nat) :
    ∃ t, s.takeBack i m aim c M chosen = State.put t i
        (if M.keeps then .finished (aim.verdict (.ok ())) else .evicting m aim c) ∧
      Undisturbed s t := by
  have hs := (Undisturbed.refl h).setManager m (some (M.withStock M.stock.vacate))
  cases hk : M.keeps with
  | true => exact ⟨_, takeBack_kept h hk, ((hs.record _).setManager m _).wakeOne m chosen⟩
  | false =>
    cases hpool : M.stock.vacate.isPool with
    | true => exact ⟨_, takeBack_spurned hk hpool, hs.wakeOne m chosen⟩
    | false =>
      rw [takeBack, if_neg (by rw [hk]; exact Bool.false_ne_true),
        if_neg (by rw [hpool]; exact Bool.false_ne_true)]
      exact ⟨_, rfl, hs⟩

/-! ## Refusals -/

/-- A report at which the sink does not panic is only recorded. -/
theorem report_eq_record {e : Event} (h : (s.report e).2 = false) :
    s.report e = (s.record e, false) := by
  unfold report at h ⊢
  split
  · rename_i text ha
    simp only [ha] at h
    split at h
    · cases h
    · rename_i hn
      rw [if_neg hn]
  · rfl

/-- **A context that is closed on a manager which has not lent it stays with its holder**, unless the
sink panics at it. -/
theorem giveBack_foreign {c : Context σ} (ho : c.owner ≠ some m)
    (h : (s.report (.notLentHere c.id m)).2 = false) :
    s.giveBack i m .close c M chosen =
      (s.record (.notLentHere c.id m)).put i (.refused c) := by
  have hr : s.reportFor Aim.close.isUnwinding (.notLentHere c.id m) =
      (s.record (.notLentHere c.id m), false) := report_eq_record h
  rw [giveBack, if_pos ho, refuse, hr]

/-- **A context that is given back to a poisoned manager ends.** -/
theorem giveBack_poisoned (ha : s.armed = none) (i : Nat) (aim : Aim) {c : Context σ}
    (ho : c.owner = some m) (hp : M.poisoned = true) (chosen : Nat) :
    ∃ t, s.giveBack i m aim c M chosen = t.put i (.finished (aim.verdict (.error .lockFailed))) ∧
      Aside s t 0 [c.id] := by
  obtain ⟨t, ht, a, -⟩ := conclude_unarmed (s := s.wreck c) ha i aim (.error .lockFailed)
  refine ⟨t, ?_, (wreck_aside s c).trans a⟩
  rw [giveBack, if_neg (not_not_intro ho), if_pos hp, destroyFor_unarmed ha]
  exact ht

end State
end Lending
end HookPool
