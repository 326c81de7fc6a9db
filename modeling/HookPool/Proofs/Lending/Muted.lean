/-
# What is left without hooks

`muted` takes everything out of a state that hooks or scripts decide: the scripts, their names and
what they have printed, the hooks that callers call and their arguments, the replies and the errors
of hooks, which all become one, and the events of hooks that are not defined.  What is left are
managers, callers and their places, the identities and owners of contexts, the factories by whether
they make something, the clock, and the other events.

Each definition has lemmas beside it: nothing that a manager offers, keeps or tells of itself depends
on what was taken out, and whatever changes a state on the way of a step changes what is left of it
in the same way.
-/
import HookPool.Proofs.Lending.Quiet

namespace HookPool

/-- It stands for whatever a hook may reply, and for each error of one. -/
def Error.ofHook : Error := .hook "" (.raised "")

def Error.muted : Error → Error
  | .hook _ _ => .ofHook
  | e => e

namespace Lending

variable {σ : Type}

/-- Hooks of scripts.  Whatever they do, each error of a hook bears its name. -/
structure Hooks (σ : Type) where
  invoke : Invoke σ
  named : ∀ script hook arguments e, (invoke script hook arguments).reply? = some (.error e) →
    ∃ fault, e = .hook hook fault

/-- Hooks that all do the same. -/
def mute : Invoke Unit := fun _ _ _ =>
  { script := (), printed := [], reply? := some (.error .ofHook) }

/-! ## What is left of managers, callers and moves -/

def Context.muted (c : Context σ) : Context Unit :=
  { id := c.id, owner := c.owner, name := "", script := () }

def Stock.muted : Stock σ → Stock Unit
  | .pool config active idle => .pool config active (idle.map Context.muted)
  | .single slot out => .single (slot.map Context.muted) out

def Offer.muted : Offer σ → Offer Unit
  | .lent c rest => .lent c.muted rest.muted
  | .reserved rest => .reserved rest.muted
  | .full => .full

def Manager.muted (M : Manager σ) : Manager Unit where
  stock := M.stock.muted
  factory := M.factory
  closed := M.closed
  poisoned := M.poisoned
  created := M.created
  destroyed := M.destroyed

def Product.muted : Product σ → Product Unit
  | .loaded _ _ _ => .loaded "" () []
  | .failed e _ => .failed e.muted []
  | .panics payload => .panics payload

def Factory.muted (factory : Factory σ) : Factory Unit where
  name := ""
  product := fun n => (factory.product n).muted
  asked := factory.asked

def Purpose.muted : Purpose → Purpose
  | .call _ _ => .call "" []
  | purpose => purpose

def Request.muted (r : Request) : Request :=
  { r with purpose := r.purpose.muted }

def Aim.muted : Aim → Aim
  | .reply (.ok _) => .reply (.error .ofHook)
  | .reply (.error e) => .reply (.error e.muted)
  | aim => aim

def Outcome.muted : Outcome → Outcome
  | .replied _ => .failed .ofHook
  | .failed e => .failed e.muted
  | o => o

def Place.muted : Place σ → Place Unit
  | .asking r => .asking r.muted
  | .asleep r => .asleep r.muted
  | .building r => .building r.muted
  | .grown r c => .grown r.muted c.muted
  | .abandoned r e => .abandoned r.muted e.muted
  | .running m _ _ c => .running m "" [] c.muted
  | .holding tenure c => .holding tenure c.muted
  | .refused c => .refused c.muted
  | .returning m aim c => .returning m aim.muted c.muted
  | .evicting m aim c => .evicting m aim.muted c.muted
  | .stopping m => .stopping m
  | .draining m active first rest => .draining m active first (rest.map Context.muted)
  | .warming m plan factory built => .warming m plan factory (built.map Context.muted)
  | .creating factory => .creating factory
  | .finished o => .finished o.muted

/-- What is left of an event; nothing of one that only tells of a hook. -/
def Event.muted? : Event → Option Event
  | .hookUndefined _ _ => none
  | .constructed c _ => some (.constructed c "")
  | .destroying c _ => some (.destroying c "")
  | .warmedUp m count _ maxActive maxIdle => some (.warmedUp m count "" maxActive maxIdle)
  | .holds m c _ => some (.holds m c "")
  | .buildFailed m e => some (.buildFailed m e.muted)
  | .leaseNotReturned e => some (.leaseNotReturned e.muted)
  | e => some e

def Operation.muted : Operation → Operation
  | .acquire m purpose timeout => .acquire m purpose.muted timeout
  | operation => operation

def Move.muted : Move σ → Move Unit
  | .begin caller operation => .begin caller operation.muted
  | .run caller chosen => .run caller chosen
  | .handle caller handling => .handle caller handling
  | .use caller _ => .use caller ()
  | .rouse caller => .rouse caller
  | .tick nanos => .tick nanos
  | .arm _ => .tick 0

@[simp] theorem Context.id_muted (c : Context σ) : c.muted.id = c.id := rfl

@[simp] theorem Context.owner_muted (c : Context σ) : c.muted.owner = c.owner := rfl

namespace Stock

@[simp] theorem active_muted (s : Stock σ) : s.muted.active = s.active := by
  cases s <;> rfl

@[simp] theorem contexts_muted (s : Stock σ) :
    s.muted.contexts = s.contexts.map Context.muted := by
  cases s with
  | pool config active idle => rfl
  | single slot out => cases slot <;> rfl

@[simp] theorem isPool_muted (s : Stock σ) : s.muted.isPool = s.isPool := by
  cases s <;> rfl

@[simp] theorem keeps_muted (s : Stock σ) : s.muted.keeps = s.keeps := by
  cases s with
  | pool config active idle => simp [Stock.muted, keeps]
  | single slot out => rfl

theorem vacate_muted (s : Stock σ) : s.muted.vacate = s.vacate.muted := by
  cases s <;> rfl

theorem emptied_muted (s : Stock σ) : s.muted.emptied = s.emptied.muted := by
  cases s <;> rfl

theorem put_muted (c : Context σ) (s : Stock σ) : s.muted.put c.muted = (s.put c).muted := by
  cases s with
  | pool config active idle => simp [Stock.muted, put]
  | single slot out => rfl

/-- **What a manager offers does not depend on scripts.** -/
theorem offer_muted (s : Stock σ) : s.muted.offer = s.offer.muted := by
  cases s with
  | pool config active idle =>
    cases idle with
    | cons c rest => rfl
    | nil =>
      simp only [Stock.muted, List.map_nil, offer]
      split <;> rfl
  | single slot out => cases slot <;> rfl

end Stock

namespace Manager

@[simp] theorem stats_muted (M : Manager σ) : M.muted.stats = M.stats := by
  obtain ⟨stock, factory, closed, poisoned, created, destroyed⟩ := M
  cases stock <;> simp [stats, Manager.muted, Stock.muted, Stock.active, Stock.contexts,
    Stock.maxActive, Stock.maxIdle]
  rename_i slot out
  cases slot <;> rfl

@[simp] theorem keeps_muted (M : Manager σ) : M.muted.keeps = M.keeps := by
  simp [keeps, Manager.muted]

theorem shut_muted (M : Manager σ) : M.muted.shut = M.shut.muted := by
  simp only [shut, Manager.muted, Stock.emptied_muted]

end Manager

namespace Place

@[simp] theorem sleepsOn_muted (m : ManagerId) (p : Place σ) :
    p.muted.sleepsOn m = p.sleepsOn m := by
  cases p <;> rfl

@[simp] theorem uses_muted (m : ManagerId) (p : Place σ) : p.muted.uses m = p.uses m := by
  cases p with
  | holding tenure c => cases tenure <;> rfl
  | _ => rfl

theorem awakened_muted (m : ManagerId) (p : Place σ) :
    State.awakened m p.muted = (State.awakened m p).muted := by
  cases p with
  | asleep r =>
    simp only [Place.muted, State.awakened, Request.muted]
    split <;> rfl
  | _ => rfl

end Place

@[simp] theorem Request.manager_muted (r : Request) : r.muted.manager = r.manager := rfl

theorem Request.served_muted (r : Request) (c : Context σ) :
    r.muted.served c.muted = (r.served c).muted := by
  obtain ⟨m, purpose, deadline⟩ := r
  cases purpose <;> rfl

theorem Aim.isUnwinding_muted (aim : Aim) : aim.muted.isUnwinding = aim.isUnwinding := by
  cases aim with
  | reply reply => cases reply <;> rfl
  | _ => rfl

namespace State

/-- What is left of a state. -/
def muted (s : State σ) : State Unit where
  managers := s.managers.map (Option.map Manager.muted)
  places := s.places.map Place.muted
  factories := s.factories.map Factory.muted
  contextsMade := s.contextsMade
  clock := s.clock
  events := s.events.filterMap Event.muted?

/-! ## What states are made of -/

@[simp] theorem manager?_muted (s : State σ) (m : ManagerId) :
    s.muted.manager? m = (s.manager? m).map Manager.muted := by
  obtain ⟨_ | n⟩ := m
  · rfl
  · simp only [manager?, muted, List.getElem?_map]
    cases s.managers[n]? with
    | none => rfl
    | some o => cases o <;> rfl

theorem place?_muted (s : State σ) (i : Nat) :
    s.muted.places[i]? = (s.places[i]?).map Place.muted :=
  List.getElem?_map

@[simp] theorem length_places_muted (s : State σ) :
    s.muted.places.length = s.places.length :=
  List.length_map _

theorem factory?_muted (s : State σ) (factory : Nat) :
    s.muted.factories[factory]? = (s.factories[factory]?).map Factory.muted :=
  List.getElem?_map

@[simp] theorem length_factories_muted (s : State σ) :
    s.muted.factories.length = s.factories.length :=
  List.length_map _

@[simp] theorem nextManager_muted (s : State σ) : s.muted.nextManager = s.nextManager := by
  simp [nextManager, muted]

@[simp] theorem nextContext_muted (s : State σ) : s.muted.nextContext = s.nextContext := rfl

theorem setManager_muted (s : State σ) (m : ManagerId) (manager : Option (Manager σ)) :
    s.muted.setManager m (manager.map Manager.muted) = (s.setManager m manager).muted := by
  simp [setManager, muted, List.map_set]

/-- A change of a manager that has nothing to do with scripts. -/
theorem onManager_muted (s : State σ) (m : ManagerId) {f : Manager σ → Manager σ}
    {g : Manager Unit → Manager Unit} (hf : ∀ M, g M.muted = (f M).muted) :
    s.muted.onManager m g = (s.onManager m f).muted := by
  simp only [onManager, manager?_muted]
  cases s.manager? m with
  | none => rfl
  | some M =>
    simp only [Option.map_some, hf]
    exact setManager_muted s m (some (f M))

theorem takeManagerId_muted (s : State σ) : s.muted.takeManagerId = s.takeManagerId.muted := by
  simp [takeManagerId, muted]

theorem put_muted (s : State σ) (i : Nat) (p : Place σ) :
    s.muted.put i p.muted = (s.put i p).muted := by
  unfold put
  rw [length_places_muted]
  split
  · simp only [muted, List.map_set]
  · simp only [muted, List.map_append, List.map_cons, List.map_nil]

theorem finish_muted (s : State σ) (i : Nat) (o : Outcome) :
    s.muted.finish i o.muted = (s.finish i o).muted :=
  put_muted s i (.finished o)

@[simp] theorem sleepers_muted (s : State σ) (m : ManagerId) :
    s.muted.sleepers m = s.sleepers m := by
  unfold sleepers
  rw [length_places_muted]
  refine List.filter_congr fun i _ => ?_
  rw [place?_muted]
  cases s.places[i]? with
  | none => rfl
  | some p => exact Place.sleepsOn_muted m p

theorem wakeOne_muted (s : State σ) (m : ManagerId) (chosen : Nat) :
    s.muted.wakeOne m chosen = (s.wakeOne m chosen).muted := by
  unfold wakeOne
  rw [sleepers_muted]
  dsimp only
  split
  · rename_i i _
    simp only [muted]
    congr 1
    apply List.ext_getElem?
    intro j
    simp only [List.getElem?_modify, List.getElem?_map]
    cases s.places[j]? with
    | none => rfl
    | some p => by_cases hij : i = j <;> simp [hij, Place.awakened_muted]
  · rfl

theorem wakeAll_muted (s : State σ) (m : ManagerId) :
    s.muted.wakeAll m = (s.wakeAll m).muted := by
  simp [wakeAll, muted, Place.awakened_muted, Function.comp_def]

theorem record_muted (s : State σ) {e e' : Event} (he : e.muted? = some e') :
    s.muted.record e' = (s.record e).muted := by
  simp [record, muted, he]

theorem wreck_muted (s : State σ) (c : Context σ) : s.muted.wreck c.muted = (s.wreck c).muted :=
  record_muted s rfl

theorem wreckAll_muted (s : State σ) (contexts : List (Context σ)) :
    s.muted.wreckAll (contexts.map Context.muted) = (s.wreckAll contexts).muted := by
  unfold wreckAll
  induction contexts generalizing s with
  | nil => rfl
  | cons c rest ih =>
    rw [List.map_cons, List.foldl_cons, List.foldl_cons, wreck_muted]
    exact ih (s.wreck c)

end State
end Lending
end HookPool
