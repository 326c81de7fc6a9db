/-
# What happens beside managers and callers

Most of what a step does besides its one change to a manager and its one change of a place goes into
the log: events are reported, lines are printed, contexts are built and come to their end.  `Aside`
says so of two states: managers, places and clock are the same, so many contexts were made, and
these ones ended.  A context has ended once its end is among the events.

Main statements: reporting, ending and building are asides (`report_aside`, `destroyAll_aside`,
`build_aside`), also when the sink panics.
-/
import HookPool.Lending.Step

namespace HookPool
namespace Lending

variable {σ : Type}

/-- The context that the event says has come to its end. -/
def Event.ended? : Event → Option ContextId
  | .destroying c _ => some c
  | _ => none

namespace State

/-- The contexts that have come to their end, the last one first. -/
def ended (s : State σ) : List ContextId :=
  s.events.filterMap Event.ended?

/-- The identity that the next context gets. -/
def nextContext (s : State σ) : ContextId := ⟨s.contextsMade + 1⟩

/-- Managers, callers and the clock are left alone, while `made` contexts were made and those in
`gone` came to their end. -/
structure Aside (s t : State σ) (made : Nat) (gone : List ContextId) : Prop where
  managers : t.managers = s.managers
  places : t.places = s.places
  clock : t.clock = s.clock
  contextsMade : t.contextsMade = s.contextsMade + made
  ended : t.ended = gone ++ s.ended

namespace Aside

variable {s t u : State σ} {m n : Nat} {g h : List ContextId}

theorem refl (s : State σ) : Aside s s 0 [] :=
  ⟨rfl, rfl, rfl, rfl, rfl⟩

theorem trans (a : Aside s t m g) (b : Aside t u n h) : Aside s u (m + n) (h ++ g) where
  managers := b.managers.trans a.managers
  places := b.places.trans a.places
  clock := b.clock.trans a.clock
  contextsMade := by rw [b.contextsMade, a.contextsMade, Nat.add_assoc]
  ended := by rw [b.ended, a.ended, List.append_assoc]

end Aside

/-! ## Events -/

theorem record_aside (s : State σ) (e : Event) : Aside s (s.record e) 0 e.ended?.toList := by
  refine ⟨rfl, rfl, rfl, rfl, ?_⟩
  unfold ended record
  cases h : e.ended? <;> simp [h]

theorem print_aside (s : State σ) (lines : List ByteArray) : Aside s (s.print lines) 0 [] :=
  ⟨rfl, rfl, rfl, rfl, rfl⟩

/-- **A report is recorded, whether the sink panics or not.** -/
theorem report_aside {s t : State σ} {e : Event} {panics : Bool} (h : s.report e = (t, panics)) :
    Aside s t 0 e.ended?.toList := by
  have hr := record_aside s e
  unfold report at h
  split at h
  · split at h
    · obtain ⟨rfl, -⟩ := Prod.mk.inj h
      exact ⟨hr.managers, hr.places, hr.clock, hr.contextsMade, hr.ended⟩
    · obtain ⟨rfl, -⟩ := Prod.mk.inj h
      exact hr
  · obtain ⟨rfl, -⟩ := Prod.mk.inj h
    exact hr

theorem reportFor_aside {s t : State σ} {unwinding : Bool} {e : Event} {panics : Bool}
    (h : s.reportFor unwinding e = (t, panics)) : Aside s t 0 e.ended?.toList := by
  unfold reportFor at h
  split at h
  · obtain ⟨rfl, -⟩ := Prod.mk.inj h
    exact record_aside s e
  · exact report_aside h

/-! ## Ends -/

theorem wreck_aside (s : State σ) (c : Context σ) : Aside s (s.wreck c) 0 [c.id] :=
  record_aside s _

theorem wreckAll_aside (s : State σ) (contexts : List (Context σ)) :
    Aside s (s.wreckAll contexts) 0 (contexts.map Context.id).reverse := by
  induction contexts generalizing s with
  | nil => exact Aside.refl s
  | cons c rest ih =>
    simpa [wreckAll] using (wreck_aside s c).trans (ih (s.wreck c))

theorem destroyFor_aside {s t : State σ} {unwinding : Bool} {c : Context σ} {panics : Bool}
    (h : s.destroyFor unwinding c = (t, panics)) : Aside s t 0 [c.id] :=
  reportFor_aside h

/-- **All contexts end, even if the sink panics at one of them.** -/
theorem destroyAll_aside {s t : State σ} {contexts : List (Context σ)} {panics : Bool}
    (h : s.destroyAll contexts = (t, panics)) :
    Aside s t 0 (contexts.map Context.id).reverse := by
  induction contexts generalizing s with
  | nil =>
    obtain ⟨rfl, -⟩ := Prod.mk.inj h
    exact Aside.refl s
  | cons c rest ih =>
    unfold destroyAll at h
    split at h
    · rename_i s₁ heq
      obtain ⟨rfl, -⟩ := Prod.mk.inj h
      simpa using (destroyFor_aside heq).trans (wreckAll_aside s₁ rest)
    · rename_i s₁ heq
      simpa using (destroyFor_aside heq).trans (ih h)

/-! ## Building -/

/-- The contexts that were made and ended at once because something went wrong after they were
loaded: at most one. -/
inductive Stillborn (s : State σ) : List (Context σ) → Prop where
  | none : Stillborn s []
  | one {c : Context σ} : c.id = s.nextContext → Stillborn s [c]

/-- **What building a context comes to.** -/
theorem build_aside {s t : State σ} {factory : Nat} {b : Built σ} (h : s.build factory = (t, b)) :
    (∃ c, b = .context c ∧ c.id = s.nextContext ∧ c.owner = none ∧ Aside s t 1 []) ∨
      (∃ e, b = .failed e ∧ Aside s t 0 []) ∨
      ∃ payload cs, b = .panicked payload ∧ Stillborn s cs ∧
        Aside s t cs.length (cs.map Context.id).reverse := by
  unfold build at h
  split at h
  · obtain ⟨rfl, rfl⟩ := Prod.mk.inj h
    exact .inr (.inr ⟨_, [], rfl, .none, .refl s⟩)
  · dsimp only at h
    split at h
    · obtain ⟨rfl, rfl⟩ := Prod.mk.inj h
      exact .inr (.inr ⟨_, [], rfl, .none, rfl, rfl, rfl, rfl, rfl⟩)
    · obtain ⟨rfl, rfl⟩ := Prod.mk.inj h
      exact .inr (.inl ⟨_, rfl, rfl, rfl, rfl, rfl, rfl⟩)
    · rename_i name script lines _
      split at h
      · rename_i s₁ heq
        obtain ⟨rfl, rfl⟩ := Prod.mk.inj h
        have hr := (report_aside heq).trans (wreck_aside s₁ ⟨s.nextContext, none, name, script⟩)
        refine .inr (.inr ⟨_, [⟨s.nextContext, none, name, script⟩], rfl, .one rfl, ?_⟩)
        exact ⟨hr.managers, hr.places, hr.clock, hr.contextsMade, hr.ended⟩
      · rename_i s₁ heq
        obtain ⟨rfl, rfl⟩ := Prod.mk.inj h
        have hr := report_aside heq
        exact .inl ⟨_, rfl, rfl, rfl, hr.managers, hr.places, hr.clock, hr.contextsMade, hr.ended⟩

theorem build_context {s t : State σ} {factory : Nat} {c : Context σ}
    (h : s.build factory = (t, .context c)) :
    c.id = s.nextContext ∧ c.owner = none ∧ Aside s t 1 [] := by
  obtain ⟨c', hb, hi, ho, a⟩ | ⟨e, hb, -⟩ | ⟨payload, cs, hb, -⟩ := build_aside h
  · cases hb
    exact ⟨hi, ho, a⟩
  · cases hb
  · cases hb

theorem build_failed {s t : State σ} {factory : Nat} {e : Error}
    (h : s.build factory = (t, .failed e)) : Aside s t 0 [] := by
  obtain ⟨c, hb, -⟩ | ⟨e', hb, a⟩ | ⟨payload, cs, hb, -⟩ := build_aside h
  · cases hb
  · exact a
  · cases hb

theorem build_panicked {s t : State σ} {factory : Nat} {payload : String}
    (h : s.build factory = (t, .panicked payload)) :
    ∃ cs, Stillborn s cs ∧ Aside s t cs.length (cs.map Context.id).reverse := by
  obtain ⟨c, hb, -⟩ | ⟨e, hb, -⟩ | ⟨payload', cs, hb, hs, a⟩ := build_aside h
  · cases hb
  · cases hb
  · exact ⟨cs, hs, a⟩

end State
end Lending
end HookPool
