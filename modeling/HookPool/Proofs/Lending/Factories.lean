/-
# What factories make

A factory makes what it makes, whatever callers do: asking one changes only how often it was asked
(`products_run`).  What comes of building a context is what its factory makes when it is asked,
unless the sink takes the builder along (`build_product`).

Main statement: every move leaves the products of all factories as they are (`products_move`).
-/
import HookPool.Proofs.Lending.Quiet
import HookPool.Proofs.Lending.Reuse
import HookPool.Proofs.Lending.Semaphore

namespace HookPool
namespace Lending

variable {σ : Type}

namespace State

variable {invoke : Invoke σ} {s t : State σ} {mv : Move σ} {moves : List (Move σ)} {i : Nat}
  {factory : Nat} {b : Built σ} {panics : Bool}

/-- What comes of asking a factory now, if it is there. -/
def product? (s : State σ) (factory : Nat) : Option (Product σ) :=
  (s.factories[factory]?).map fun maker => maker.product maker.asked

/-- What comes of asking each factory, however often it was asked. -/
def products (s : State σ) : List (Nat → Product σ) :=
  s.factories.map Factory.product

/-! ## Building -/

/-- **What comes of building a context is what the factory makes**, or the sink takes the builder
along. -/
theorem build_product (h : s.build factory = (t, b)) :
    (∃ c lines, b = .context c ∧ s.product? factory = some (.loaded c.name c.script lines)) ∨
      (∃ e lines, b = .failed e ∧ s.product? factory = some (.failed e lines)) ∨
        ∃ payload, b = .panicked payload ∧
          (s.product? factory = none ∨ s.product? factory = some (.panics payload) ∨
            payload = sinkPayload ∧ s.armed ≠ none) := by
  unfold build at h
  unfold product?
  cases hmaker : s.factories[factory]? with
  | none =>
    rw [hmaker] at h
    obtain ⟨rfl, rfl⟩ := Prod.mk.inj h
    exact .inr (.inr ⟨_, rfl, .inl rfl⟩)
  | some maker =>
    rw [hmaker] at h
    dsimp only at h
    rw [Option.map_some]
    cases hproduct : maker.product maker.asked with
    | panics payload =>
      rw [hproduct] at h
      obtain ⟨rfl, rfl⟩ := Prod.mk.inj h
      exact .inr (.inr ⟨_, rfl, .inr (.inl rfl)⟩)
    | failed e lines =>
      rw [hproduct] at h
      obtain ⟨rfl, rfl⟩ := Prod.mk.inj h
      exact .inr (.inl ⟨_, _, rfl, rfl⟩)
    | loaded name script lines =>
      rw [hproduct] at h
      dsimp only at h
      split at h
      · rename_i s₁ heq
        obtain ⟨rfl, rfl⟩ := Prod.mk.inj h
        refine .inr (.inr ⟨_, rfl, .inr (.inr ⟨rfl, fun ha => ?_⟩)⟩)
        rw [report_unarmed (by exact ha)] at heq
        cases heq
      · obtain ⟨rfl, rfl⟩ := Prod.mk.inj h
        exact .inl ⟨_, lines, rfl, rfl⟩

theorem armed_of_build (h : s.build factory = (t, b)) (ha : s.armed = none) :
    t.armed = none := by
  unfold build at h
  split at h
  · obtain ⟨rfl, -⟩ := Prod.mk.inj h
    exact ha
  · dsimp only at h
    split at h
    · obtain ⟨rfl, -⟩ := Prod.mk.inj h
      exact ha
    · obtain ⟨rfl, -⟩ := Prod.mk.inj h
      exact ha
    · rw [report_unarmed (by exact ha)] at h
      obtain ⟨rfl, -⟩ := Prod.mk.inj h
      exact ha

/-- How often a factory was asked. -/
def timesAsked (s : State σ) (factory : Nat) : Nat :=
  ((s.factories[factory]?).map Factory.asked).getD 0

theorem timesAsked_of_factories (h : t.factories = s.factories) (factory : Nat) :
    t.timesAsked factory = s.timesAsked factory := by
  rw [timesAsked, timesAsked, h]

/-- **A factory that is there counts how often it is asked.** -/
theorem timesAsked_of_build (h : s.build factory = (t, b)) (hf : factory < s.factories.length) :
    t.timesAsked factory = s.timesAsked factory + 1 := by
  unfold build at h
  unfold timesAsked
  rw [List.getElem?_eq_getElem hf] at h ⊢
  have hset : ∀ maker : Factory σ,
      (s.factories.set factory maker)[factory]? = some maker := fun maker => by
    rw [List.getElem?_set, if_pos rfl, if_pos hf]
  dsimp only at h
  split at h
  · obtain ⟨rfl, -⟩ := Prod.mk.inj h
    rw [hset]
    rfl
  · obtain ⟨rfl, -⟩ := Prod.mk.inj h
    rw [print, hset]
    rfl
  · split at h
    all_goals
      rename_i heq
      obtain ⟨rfl, -⟩ := Prod.mk.inj h
      simp only [wreck, record, factories_of_report heq, print, hset]
      rfl

/-! ## Products are left alone -/

theorem products_of_factories (h : t.factories = s.factories) : t.products = s.products := by
  rw [products, products, h]

@[grind =] theorem products_put (s : State σ) (i : Nat) (p : Place σ) :
    (s.put i p).products = s.products :=
  products_of_factories (factories_put s i p)

@[grind =] theorem products_finish (s : State σ) (i : Nat) (o : Outcome) :
    (s.finish i o).products = s.products :=
  products_put s i _

@[grind =] theorem products_crash (s : State σ) (i : Nat) : (s.crash i).products = s.products :=
  products_put s i _

@[grind =] theorem products_setManager (s : State σ) (m : ManagerId)
    (manager : Option (Manager σ)) : (s.setManager m manager).products = s.products := rfl

@[grind =] theorem products_onManager (s : State σ) (m : ManagerId) (f : Manager σ → Manager σ) :
    (s.onManager m f).products = s.products := by
  unfold onManager; split <;> rfl

@[grind =] theorem products_takeManagerId (s : State σ) :
    s.takeManagerId.products = s.products := rfl

@[grind =] theorem products_wakeOne (s : State σ) (m : ManagerId) (chosen : Nat) :
    (s.wakeOne m chosen).products = s.products := by
  rw [wakeOne_eq]; rfl

@[grind =] theorem products_wakeAll (s : State σ) (m : ManagerId) :
    (s.wakeAll m).products = s.products := rfl

@[grind =] theorem products_record (s : State σ) (e : Event) :
    (s.record e).products = s.products := rfl

@[grind =] theorem products_print (s : State σ) (lines : List ByteArray) :
    (s.print lines).products = s.products := rfl

@[grind =] theorem products_wreck (s : State σ) (c : Context σ) :
    (s.wreck c).products = s.products := rfl

@[grind =] theorem products_wreckAll (s : State σ) (contexts : List (Context σ)) :
    (s.wreckAll contexts).products = s.products := by
  unfold wreckAll
  induction contexts generalizing s with
  | nil => rfl
  | cons c rest ih => exact ih (s.wreck c)

@[grind →] theorem products_of_report {e : Event} (h : s.report e = (t, panics)) :
    t.products = s.products := by
  unfold report at h
  split at h
  · split at h <;> obtain ⟨rfl, -⟩ := Prod.mk.inj h <;> rfl
  · obtain ⟨rfl, -⟩ := Prod.mk.inj h
    rfl

@[grind →] theorem products_of_reportFor {e : Event} {unwinding : Bool}
    (h : s.reportFor unwinding e = (t, panics)) : t.products = s.products := by
  unfold reportFor at h
  split at h
  · obtain ⟨rfl, -⟩ := Prod.mk.inj h
    rfl
  · exact products_of_report h

@[grind →] theorem products_of_destroyFor {unwinding : Bool} {c : Context σ}
    (h : s.destroyFor unwinding c = (t, panics)) : t.products = s.products :=
  products_of_reportFor h

@[grind →] theorem products_of_destroyAll {contexts : List (Context σ)}
    (h : s.destroyAll contexts = (t, panics)) : t.products = s.products := by
  induction contexts generalizing s with
  | nil =>
    obtain ⟨rfl, -⟩ := Prod.mk.inj h
    rfl
  | cons c rest ih =>
    rw [destroyAll] at h
    split at h
    · rename_i s₁ heq
      obtain ⟨rfl, -⟩ := Prod.mk.inj h
      exact (products_wreckAll s₁ rest).trans (products_of_destroyFor heq)
    · rename_i s₁ heq
      exact (ih h).trans (products_of_destroyFor heq)

@[grind →] theorem products_of_discard {unwinding : Bool} {m : ManagerId} {M : Manager σ}
    {c : Context σ} (h : s.discard unwinding m M c = (t, panics)) : t.products = s.products := by
  grind [discard]

/-- **Asking a factory changes only how often it was asked.** -/
@[grind →] theorem products_of_build (h : s.build factory = (t, b)) :
    t.products = s.products := by
  unfold build at h
  cases hmaker : s.factories[factory]? with
  | none =>
    rw [hmaker] at h
    obtain ⟨rfl, -⟩ := Prod.mk.inj h
    rfl
  | some maker =>
    have hset := map_product_set hmaker (maker.asked + 1)
    rw [hmaker] at h
    dsimp only at h
    split at h
    · obtain ⟨rfl, -⟩ := Prod.mk.inj h
      exact hset
    · obtain ⟨rfl, -⟩ := Prod.mk.inj h
      exact hset
    · split at h
      · rename_i s₁ heq
        obtain ⟨rfl, -⟩ := Prod.mk.inj h
        exact (products_of_report heq).trans hset
      · rename_i s₁ heq
        obtain ⟨rfl, -⟩ := Prod.mk.inj h
        exact (products_of_report heq).trans hset

/-! ## Steps -/

@[grind =] theorem products_conclude (s : State σ) (i : Nat) (aim : Aim)
    (result : Except Error Unit) : (s.conclude i aim result).products = s.products := by
  unfold conclude
  grind

@[grind =] theorem products_ask (s : State σ) (i : Nat) (r : Request) (M : Manager σ) :
    (s.ask i r M).products = s.products := by
  grind [ask, await, serve]

@[grind =] theorem products_grow (s : State σ) (i : Nat) (r : Request) (M : Manager σ) :
    (s.grow i r M).products = s.products := by
  grind [grow]

@[grind =] theorem products_countGrown (s : State σ) (i : Nat) (r : Request) (c : Context σ) :
    (s.countGrown i r c).products = s.products := by
  grind [countGrown, serve]

@[grind =] theorem products_abandon (s : State σ) (i : Nat) (r : Request) (e : Error)
    (chosen : Nat) : (s.abandon i r e chosen).products = s.products := by
  grind [abandon]

@[grind =] theorem products_callHook (invoke : Invoke σ) (s : State σ) (i : Nat) (m : ManagerId)
    (hook : String) (arguments : List HookArg) (c : Context σ) :
    (callHook invoke s i m hook arguments c).products = s.products := by
  grind [callHook]

@[grind =] theorem products_disown (s : State σ) (i : Nat) (aim : Aim) (c : Context σ) :
    (s.disown i aim c).products = s.products := by
  grind [disown]

@[grind =] theorem products_giveBack (s : State σ) (i : Nat) (m : ManagerId) (aim : Aim)
    (c : Context σ) (M : Manager σ) (chosen : Nat) :
    (s.giveBack i m aim c M chosen).products = s.products := by
  grind [giveBack, refuse, takeBack]

@[grind =] theorem products_evict (s : State σ) (i : Nat) (m : ManagerId) (aim : Aim)
    (c : Context σ) (M : Manager σ) : (s.evict i m aim c M).products = s.products := by
  grind [evict]

@[grind =] theorem products_stop (s : State σ) (i : Nat) (m : ManagerId) (M : Manager σ) :
    (s.stop i m M).products = s.products := by
  grind [stop]

@[grind =] theorem products_drain (s : State σ) (i : Nat) (m : ManagerId) (active : Nat)
    (first : Bool) (M : Manager σ) (contexts : List (Context σ)) :
    (s.drain i m active first M contexts).products = s.products := by
  cases contexts <;> grind [drain]

@[grind =] theorem products_dropManager (s : State σ) (i : Nat) (m : ManagerId)
    (M : Manager σ) : (s.dropManager i m M).products = s.products := by
  grind [dropManager]

@[grind =] theorem products_warm (s : State σ) (i : Nat) (m : ManagerId) (plan : Plan)
    (factory : Nat) (built : List (Context σ)) :
    (s.warm i m plan factory built).products = s.products := by
  grind [warm]

@[grind =] theorem products_create (s : State σ) (i factory : Nat) :
    (s.create i factory).products = s.products := by
  grind [create]

@[grind =] theorem products_establish (s : State σ) (i factory : Nat) (plan : Plan) :
    (s.establish i factory plan).products = s.products := by
  unfold establish
  grind

/-! ## Moves -/

theorem products_of_withManager {m : ManagerId} {f : Manager σ → State σ}
    (h : s.withManager m f = some t) (hf : ∀ M, (f M).products = s.products) :
    t.products = s.products := by
  obtain ⟨M, -, rfl⟩ := withManager_eq_some h
  exact hf M

theorem products_step? {chosen : Nat} (h : s.step? invoke i chosen = some t) :
    t.products = s.products := by
  unfold step? at h
  split at h
  · cases h
  rename_i place hp
  cases place with
  | running m hook arguments c =>
    obtain rfl := Option.some.inj h
    exact products_callHook invoke s i m hook arguments c
  | warming m plan factory built =>
    obtain rfl := Option.some.inj h
    exact products_warm s i m plan factory built
  | creating factory =>
    obtain rfl := Option.some.inj h
    exact products_create s i factory
  | asleep | holding | refused | finished => cases h
  | _ => exact products_of_withManager h fun M => by grind

theorem products_begin? {operation : Operation} (h : s.begin? i operation = some t) :
    t.products = s.products := by
  unfold begin? at h
  split at h
  case isFalse => cases h
  cases operation with
  | acquire m purpose timeout => exact products_of_withManager h fun M => products_put s i _
  | shutDown m => exact products_of_withManager h fun M => products_put s i _
  | dropManager m =>
    dsimp only at h
    split at h
    · cases h
    · exact products_of_withManager h fun M => products_dropManager s i m M
  | establish factory plan => grind
  | create factory => grind

theorem products_handle? {handling : Handling} (h : s.handle? i handling = some t) :
    t.products = s.products := by
  unfold handle? at h
  split at h
  case h_1 => exact products_of_withManager h fun M => products_put s i _
  all_goals grind [letGo, destroy]

/-- **Whatever happens, factories make what they made before.** -/
theorem products_move (h : s.move invoke mv = some t) : t.products = s.products := by
  cases mv with
  | begin i operation => exact products_begin? h
  | run i chosen => exact products_step? h
  | handle i handling => exact products_handle? h
  | use i script => grind [move, use?]
  | rouse i => grind [move, rouse?]
  | tick nanos =>
    obtain rfl := Option.some.inj h
    rfl
  | arm text =>
    obtain rfl := Option.some.inj h
    rfl

theorem products_run (h : s.run invoke moves = some t) : t.products = s.products :=
  run_induction (P := fun t => t.products = s.products)
    (fun _ _ _ hs hm => (products_move hm).trans hs) rfl h

/-- A factory that is there makes one of its products. -/
theorem product?_of_products {product : Nat → Product σ} (h : s.products[factory]? = some product) :
    ∃ n, s.product? factory = some (product n) := by
  rw [products, List.getElem?_map] at h
  obtain ⟨maker, hmaker, rfl⟩ := Option.map_eq_some_iff.1 h
  exact ⟨maker.asked, by rw [product?, hmaker, Option.map_some]⟩

/-- What comes of asking a factory is one of its products, wherever a run leads. -/
theorem product?_of_run {maker : Factory σ} (hmaker : s.factories[factory]? = some maker)
    (h : s.run invoke moves = some t) : ∃ n, t.product? factory = some (maker.product n) := by
  refine product?_of_products ?_
  rw [products_run h, products, List.getElem?_map, hmaker, Option.map_some]

/-- A factory that always loads a script goes on to do so. -/
theorem Loads.of_products (h : s.Loads factory) (ht : t.products = s.products) :
    t.Loads factory := by
  obtain ⟨maker, hmaker, hloads⟩ := h
  have hat : t.products[factory]? = some maker.product := by
    rw [ht, products, List.getElem?_map, hmaker, Option.map_some]
  rw [products, List.getElem?_map] at hat
  obtain ⟨maker', hmaker', hsame⟩ := Option.map_eq_some_iff.1 hat
  exact ⟨maker', hmaker', by rw [hsame]; exact hloads⟩

end State
end Lending
end HookPool
