/-
# Pools of one in the place of managers of one

A pool that starts with one context, lends one and keeps one has a counter and a list where a
manager of one context has a slot and a flag.  `pooled` replaces the one by the other, in a manager,
in a plan, in the place of a caller that makes a manager, and in a move.

A state mirrors another one if it is the same with every manager of one replaced, whatever was
reported on the way: `Mirrored s t`.  As long as the sink is not armed, each thing that a caller
does in the one state comes to the same in the other one, up to `pooled`, and the states mirror each
other afterwards.  The managers of one have to be within their bounds for that (`Mirrored.ask`,
`Mirrored.takeBack`): a slot that is taken while the flag is set would be a pool of one that lends
two.
-/
import HookPool.Proofs.Lending.Quiet
import HookPool.Proofs.Lending.Wakeup

namespace HookPool
namespace Lending

variable {σ : Type}

/-! ## Replacing managers of one -/

/-- The sizes of a pool that has one context. -/
def poolOfOne : PoolConfig := ⟨1, 1, 1⟩

def Plan.pooled : Plan → Plan
  | .single => .pool poolOfOne
  | .pool config => .pool config

def Stock.pooled : Stock σ → Stock σ
  | .single slot out => .pool poolOfOne (if out then 1 else 0) slot.toList
  | .pool config active idle => .pool config active idle

def Offer.pooled : Offer σ → Offer σ
  | .lent c rest => .lent c rest.pooled
  | .reserved rest => .reserved rest.pooled
  | .full => .full

def Manager.pooled (M : Manager σ) : Manager σ :=
  { M with stock := M.stock.pooled }

def Place.pooled : Place σ → Place σ
  | .warming m plan factory built => .warming m plan.pooled factory built
  | place => place

def Operation.pooled : Operation → Operation
  | .establish factory plan => .establish factory plan.pooled
  | operation => operation

def Move.pooled : Move σ → Move σ
  | .begin caller operation => .begin caller operation.pooled
  | mv => mv

@[simp] theorem Plan.startCount_pooled (plan : Plan) :
    plan.pooled.startCount = plan.startCount := by
  cases plan <;> rfl

@[simp] theorem Stock.active_pooled (s : Stock σ) : s.pooled.active = s.active := by
  cases s <;> rfl

@[simp] theorem Stock.contexts_pooled (s : Stock σ) : s.pooled.contexts = s.contexts := by
  cases s <;> rfl

theorem Stock.emptied_pooled (s : Stock σ) : s.pooled.emptied = s.emptied.pooled := by
  cases s <;> rfl

theorem Stock.vacate_pooled (s : Stock σ) : s.pooled.vacate = s.vacate.pooled := by
  cases s with
  | pool config active idle => rfl
  | single slot out => cases out <;> rfl

/-- **A pool of one offers what a manager of one does**, if the one context is at hand or lent. -/
theorem Stock.offer_pooled {s : Stock σ}
    (h : s.isPool = false → s.active + s.contexts.length = 1) :
    s.pooled.offer = s.offer.pooled := by
  cases s with
  | pool config active idle =>
    cases idle with
    | cons c rest => rfl
    | nil =>
      simp only [Stock.pooled, offer]
      split <;> rfl
  | single slot out =>
    have hone := h rfl
    cases out <;> cases slot
    · cases hone
    · rfl
    · rfl
    · cases hone

/-- A pool of one has room for its context when it comes back. -/
theorem Stock.keeps_pooled {s : Stock σ} (h : s.isPool = false → s.contexts = []) :
    s.pooled.keeps = s.keeps := by
  cases s with
  | pool config active idle => rfl
  | single slot out =>
    have hnone : slot.toList = [] := h rfl
    simp [Stock.pooled, keeps, hnone, poolOfOne]

theorem Stock.put_pooled {s : Stock σ} (c : Context σ) (h : s.isPool = false → s.contexts = []) :
    (s.put c).pooled = s.pooled.put c := by
  cases s with
  | pool config active idle => rfl
  | single slot out =>
    have hnone : slot.toList = [] := h rfl
    simp [Stock.pooled, put, hnone]

/-- **A pool of one tells the same of itself as a manager of one.** -/
theorem Manager.stats_pooled (M : Manager σ) : M.pooled.stats = M.stats := by
  obtain ⟨stock, factory, closed, poisoned, created, destroyed⟩ := M
  cases stock <;> rfl

theorem Manager.shut_pooled (M : Manager σ) : M.pooled.shut = M.shut.pooled := by
  simp only [shut, pooled, Stock.emptied_pooled]

theorem Place.uses_pooled (m : ManagerId) (p : Place σ) : p.pooled.uses m = p.uses m := by
  cases p <;> rfl

theorem Place.sleepsOn_pooled (m : ManagerId) (p : Place σ) :
    p.pooled.sleepsOn m = p.sleepsOn m := by
  cases p <;> rfl

namespace State

/-- The second state is the first one with every manager of one context replaced by a pool of one,
whatever was reported; and the sink is armed in neither. -/
structure Mirrored (s t : State σ) : Prop where
  managers : t.managers = s.managers.map (Option.map Manager.pooled)
  places : t.places = s.places.map Place.pooled
  factories : t.factories = s.factories
  contextsMade : t.contextsMade = s.contextsMade
  clock : t.clock = s.clock
  printed : t.printed = s.printed
  ended : t.ended = s.ended
  unarmed : s.armed = none
  unarmed' : t.armed = none

variable {invoke : Invoke σ} {s t : State σ} {m : ManagerId} {M : Manager σ} {i chosen : Nat}

/-! ## Nobody asleep -/

/-- Nobody is woken on a manager on which nobody sleeps. -/
theorem wakeOne_of_sleepers_nil (h : s.sleepers m = []) (chosen : Nat) :
    s.wakeOne m chosen = s := by
  simp [wakeOne, h]

theorem Reachable.sleepers_eq_nil (hs : Reachable invoke s) (hM : s.manager? m = some M)
    (hp : M.poisoned = false) (hc : M.closed = true) : s.sleepers m = [] := by
  refine List.eq_nil_iff_forall_not_mem.2 fun i hi => ?_
  obtain ⟨r, hr, hrm⟩ := mem_sleepersIn hi
  have hopen := hs.open_of_asleep hM hp (List.mem_of_getElem? hr) hrm
  rw [hc] at hopen
  cases hopen

theorem ended_record (s : State σ) (e : Event) :
    (s.record e).ended = e.ended?.toList ++ s.ended :=
  (record_aside s e).ended

namespace Mirrored

theorem manager? (h : Mirrored s t) (m : ManagerId) :
    t.manager? m = (s.manager? m).map Manager.pooled := by
  obtain ⟨_ | n⟩ := m
  · rfl
  · simp only [State.manager?, h.managers, List.getElem?_map]
    cases s.managers[n]? with
    | none => rfl
    | some o => cases o <;> rfl

theorem place? (h : Mirrored s t) (i : Nat) : t.places[i]? = (s.places[i]?).map Place.pooled := by
  rw [h.places, List.getElem?_map]

/-! ## What keeps states mirrored -/

theorem put (h : Mirrored s t) (i : Nat) (p : Place σ) :
    Mirrored (s.put i p) (t.put i p.pooled) := by
  have hl : t.places.length = s.places.length := by rw [h.places, List.length_map]
  unfold State.put
  rw [hl]
  split
  · exact { h with places := by simp [h.places, List.map_set] }
  · exact { h with places := by simp [h.places] }

theorem finish (h : Mirrored s t) (i : Nat) (o : Outcome) :
    Mirrored (s.finish i o) (t.finish i o) :=
  h.put i (.finished o)

theorem setManager (h : Mirrored s t) (m : ManagerId) (manager : Option (Manager σ)) :
    Mirrored (s.setManager m manager) (t.setManager m (manager.map Manager.pooled)) :=
  { h with managers := by simp [State.setManager, h.managers, List.map_set] }

theorem setStock (h : Mirrored s t) (m : ManagerId) (M : Manager σ) (stock : Stock σ) :
    Mirrored (s.setManager m (some (M.withStock stock)))
      (t.setManager m (some (M.pooled.withStock stock.pooled))) :=
  h.setManager m (some (M.withStock stock))

/-- A change of a manager that every manager takes alike. -/
theorem onManager (h : Mirrored s t) (m : ManagerId) {f : Manager σ → Manager σ}
    (hf : ∀ M : Manager σ, f M.pooled = (f M).pooled) :
    Mirrored (s.onManager m f) (t.onManager m f) := by
  simp only [State.onManager, h.manager?]
  cases s.manager? m with
  | none => exact h
  | some M =>
    simp only [Option.map_some, hf]
    exact h.setManager m (some (f M))

theorem takeManagerId (h : Mirrored s t) : Mirrored s.takeManagerId t.takeManagerId :=
  { h with managers := by simp [State.takeManagerId, h.managers] }

theorem nextManager (h : Mirrored s t) : t.nextManager = s.nextManager := by
  simp [State.nextManager, h.managers]

/-- Both may report what they like, as long as the same contexts end. -/
theorem record (h : Mirrored s t) {e e' : Event} (he : e'.ended? = e.ended?) :
    Mirrored (s.record e) (t.record e') :=
  { h with ended := by rw [ended_record, ended_record, he, h.ended] }

theorem record_left (h : Mirrored s t) {e : Event} (he : e.ended? = none) :
    Mirrored (s.record e) t :=
  { h with ended := by rw [ended_record, he, h.ended]; rfl }

theorem record_right (h : Mirrored s t) {e : Event} (he : e.ended? = none) :
    Mirrored s (t.record e) :=
  { h with ended := by rw [ended_record, he, h.ended]; rfl }

theorem wreck (h : Mirrored s t) (c : Context σ) : Mirrored (s.wreck c) (t.wreck c) :=
  h.record rfl

theorem wreckAll (h : Mirrored s t) (contexts : List (Context σ)) :
    Mirrored (s.wreckAll contexts) (t.wreckAll contexts) := by
  induction contexts generalizing s t with
  | nil => exact h
  | cons c rest ih => exact ih (h.wreck c)

theorem print (h : Mirrored s t) (lines : List ByteArray) :
    Mirrored (s.print lines) (t.print lines) :=
  { h with printed := by simp [State.print, h.printed] }

theorem sleepers (h : Mirrored s t) (m : ManagerId) : t.sleepers m = s.sleepers m := by
  simp only [State.sleepers, h.places, List.length_map, List.getElem?_map]
  refine List.filter_congr fun i _ => ?_
  cases s.places[i]? with
  | none => rfl
  | some p => exact Place.sleepsOn_pooled m p

theorem awakened_pooled (m : ManagerId) (p : Place σ) :
    awakened m p.pooled = (awakened m p).pooled := by
  cases p with
  | asleep r => simp only [Place.pooled, awakened]; split <;> rfl
  | _ => rfl

theorem wakeOne (h : Mirrored s t) (m : ManagerId) (chosen : Nat) :
    Mirrored (s.wakeOne m chosen) (t.wakeOne m chosen) := by
  unfold State.wakeOne
  rw [h.sleepers]
  dsimp only
  split
  · rename_i i hi
    refine { h with places := ?_ }
    apply List.ext_getElem?
    intro j
    simp only [h.places, List.getElem?_modify, List.getElem?_map]
    cases s.places[j]? with
    | none => rfl
    | some p => by_cases hij : i = j <;> simp [hij, awakened_pooled]
  · exact h

theorem wakeAll (h : Mirrored s t) (m : ManagerId) :
    Mirrored (s.wakeAll m) (t.wakeAll m) :=
  { h with places := by simp [State.wakeAll, h.places, awakened_pooled, Function.comp_def] }

/-- Both may report what they like, as long as the same contexts end, and neither sink panics. -/
theorem report (h : Mirrored s t) {e e' : Event} (he : e'.ended? = e.ended?) :
    ∃ s' t', s.report e = (s', false) ∧ t.report e' = (t', false) ∧ Mirrored s' t' :=
  ⟨_, _, report_unarmed h.unarmed e, report_unarmed h.unarmed' e', h.record he⟩

theorem reportFor (h : Mirrored s t) (unwinding : Bool) {e e' : Event}
    (he : e'.ended? = e.ended?) :
    ∃ s' t', s.reportFor unwinding e = (s', false) ∧ t.reportFor unwinding e' = (t', false) ∧
      Mirrored s' t' :=
  ⟨_, _, reportFor_unarmed h.unarmed unwinding e, reportFor_unarmed h.unarmed' unwinding e',
    h.record he⟩

/-! ## Opening -/

theorem build (h : Mirrored s t) (factory : Nat) :
    ∃ s' t' b, s.build factory = (s', b) ∧ t.build factory = (t', b) ∧ Mirrored s' t' := by
  unfold State.build
  rw [h.factories]
  cases s.factories[factory]? with
  | none => exact ⟨s, t, _, rfl, rfl, h⟩
  | some maker =>
    dsimp only
    cases maker.product maker.asked with
    | panics payload => exact ⟨_, _, _, rfl, rfl, { h with factories := rfl }⟩
    | failed error lines =>
      refine ⟨_, _, _, rfl, rfl, { h with factories := rfl, printed := ?_ }⟩
      simp [State.print, h.printed]
    | loaded name script lines =>
      simp only [State.report, State.print, h.unarmed, h.unarmed', h.contextsMade]
      exact ⟨_, _, _, rfl, rfl, { h with
        factories := rfl
        contextsMade := rfl
        printed := by simp [State.record, h.printed]
        unarmed := rfl
        unarmed' := rfl }⟩

theorem serve (h : Mirrored s t) (i : Nat) (r : Request) (c : Context σ) :
    Mirrored (s.serve i r c) (t.serve i r c) := by
  unfold State.serve
  cases r.purpose <;> exact h.put i _

theorem await (h : Mirrored s t) (i : Nat) (r : Request) :
    Mirrored (s.await i r) (t.await i r) := by
  unfold State.await
  cases r.deadline with
  | none => exact h.put i (.asleep r)
  | some deadline =>
    dsimp only
    rw [h.clock]
    split
    · exact h.finish i _
    · exact h.put i (.asleep r)

/-- **An opener comes to the same with a pool of one.** -/
theorem ask (h : Mirrored s t) (i : Nat) (r : Request) {n : Tally} (hb : Bounded M n) :
    Mirrored (s.ask i r M) (t.ask i r M.pooled) := by
  unfold State.ask
  by_cases hp : M.poisoned = true
  · rw [if_pos hp, if_pos (show M.pooled.poisoned = true from hp)]
    exact h.finish i _
  rw [if_neg hp, if_neg (show ¬M.pooled.poisoned = true from hp)]
  by_cases hc : M.closed = true
  · rw [if_pos hc, if_pos (show M.pooled.closed = true from hc)]
    exact h.finish i _
  rw [if_neg hc, if_neg (show ¬M.pooled.closed = true from hc)]
  rw [Bool.not_eq_true] at hp hc
  have ho : M.pooled.stock.offer = M.stock.offer.pooled :=
    Stock.offer_pooled fun hs => hb.single hs hc hp
  rw [ho]
  cases M.stock.offer with
  | lent c rest =>
    dsimp only [Offer.pooled]
    have he : (lentEvent r.manager rest.pooled c).ended? = (lentEvent r.manager rest c).ended? := by
      rw [lentEvent_ended?, lentEvent_ended?]
    obtain ⟨s', t', hs, ht, h'⟩ := (h.setStock r.manager M rest).report he
    rw [hs, ht]
    exact h'.serve i r c
  | reserved rest => exact (h.setStock r.manager M rest).put i (.building r)
  | full => exact h.await i r

theorem grow (h : Mirrored s t) (i : Nat) (r : Request) (M : Manager σ) :
    Mirrored (s.grow i r M) (t.grow i r M.pooled) := by
  unfold State.grow
  obtain ⟨s', t', b, hs, ht, h'⟩ := h.build M.factory
  rw [hs, show t.build M.pooled.factory = _ from ht]
  cases b with
  | context c => exact h'.put i (.grown r _)
  | panicked payload => exact h'.finish i _
  | failed e =>
    dsimp only
    obtain ⟨s'', t'', hs', ht', h''⟩ := h'.report (e := .buildFailed r.manager e) rfl
    rw [hs', ht']
    exact h''.put i (.abandoned r e)

theorem countGrown (h : Mirrored s t) (i : Nat) (r : Request) (c : Context σ) :
    Mirrored (s.countGrown i r c) (t.countGrown i r c) := by
  unfold State.countGrown
  obtain ⟨s', t', hs, ht, h'⟩ :=
    (h.onManager r.manager (f := .countCreated) fun _ => rfl).report
      (e := .grew r.manager c.id) rfl
  rw [hs, ht]
  exact h'.serve i r c

theorem abandon (h : Mirrored s t) (i : Nat) (r : Request) (e : Error) (chosen : Nat) :
    Mirrored (s.abandon i r e chosen) (t.abandon i r e chosen) := by
  unfold State.abandon
  refine ((h.onManager r.manager fun M => ?_).wakeOne r.manager chosen).finish i _
  simp only [Manager.withStock, Manager.pooled, Stock.vacate_pooled]

/-! ## Calling and giving back -/

theorem callHook (h : Mirrored s t) (i : Nat) (m : ManagerId) (hook : String)
    (arguments : List HookArg) (c : Context σ) :
    Mirrored (State.callHook invoke s i m hook arguments c)
      (State.callHook invoke t i m hook arguments c) := by
  unfold State.callHook
  dsimp only
  have hp := h.print (invoke c.script hook arguments).printed
  cases (invoke c.script hook arguments).reply? with
  | some reply => exact hp.put i (.returning m (.reply reply) _)
  | none =>
    dsimp only
    obtain ⟨s', t', hs, ht, h'⟩ := hp.report (e := .hookUndefined hook c.name) rfl
    rw [hs, ht]
    exact h'.put i (.returning m _ _)

theorem conclude (h : Mirrored s t) (i : Nat) (aim : Aim) (result : Except Error Unit) :
    Mirrored (s.conclude i aim result) (t.conclude i aim result) := by
  unfold State.conclude
  split
  case h_7 e =>
    obtain ⟨s', t', hs, ht, h'⟩ := h.report (e := .leaseNotReturned e) rfl
    rw [hs, ht]
    exact h'.finish i _
  case h_9 e => exact (h.record (e := .leaseNotReturned e) rfl).finish i _
  all_goals exact h.finish i _

theorem disown (h : Mirrored s t) (i : Nat) (aim : Aim) (c : Context σ) :
    Mirrored (s.disown i aim c) (t.disown i aim c) := by
  unfold State.disown
  obtain ⟨s', t', hs, ht, h'⟩ :=
    h.reportFor aim.isUnwinding (e := .leaseNotReturned (.foreignContext c.id)) rfl
  rw [hs, ht]
  dsimp only
  rw [destroyFor_unarmed h'.unarmed, destroyFor_unarmed h'.unarmed']
  exact (h'.wreck c).conclude i aim _

theorem refuse (h : Mirrored s t) (i : Nat) (m : ManagerId) (aim : Aim) (c : Context σ) :
    Mirrored (s.refuse i m aim c) (t.refuse i m aim c) := by
  unfold State.refuse
  obtain ⟨s', t', hs, ht, h'⟩ := h.reportFor aim.isUnwinding (e := .notLentHere c.id m) rfl
  rw [hs, ht]
  cases aim with
  | close => exact h'.put i (.refused c)
  | reply reply => exact h'.put i (.refused c)
  | leave => exact h'.disown i _ c
  | unwind payload => exact h'.disown i _ c

/-- **A context comes back to a pool of one as to a manager of one.**  A pool wakes an opener even
if it does not keep the context, but then it is closed, and nobody sleeps on it. -/
theorem takeBack (h : Mirrored s t) (i : Nat) (m : ManagerId) (aim : Aim) (c : Context σ)
    {n : Tally} (hb : Bounded M n) (hheld : 0 < n.held)
    (hawake : M.closed = true → s.sleepers m = []) (chosen : Nat) :
    Mirrored (s.takeBack i m aim c M chosen) (t.takeBack i m aim c M.pooled chosen) := by
  have hbare : M.stock.isPool = false → M.stock.contexts = [] := fun hs =>
    hb.contexts_eq_nil hs hheld
  have hvacate : M.pooled.stock.vacate = M.stock.vacate.pooled := M.stock.vacate_pooled
  have hkeeps : M.pooled.keeps = M.keeps := by
    show (!M.closed && M.stock.pooled.keeps) = (!M.closed && M.stock.keeps)
    rw [Stock.keeps_pooled hbare]
  have hset := h.setStock m M M.stock.vacate
  unfold State.takeBack
  dsimp only
  rw [hvacate, hkeeps]
  by_cases hk : M.keeps = true
  · rw [if_pos hk, if_pos hk]
    have he : (keptEvent m M.stock.vacate.pooled c).ended? =
        (keptEvent m M.stock.vacate c).ended? := by
      rw [keptEvent_ended?, keptEvent_ended?]
    obtain ⟨s', t', hs, ht, h'⟩ := hset.reportFor aim.isUnwinding he
    rw [hs, ht]
    dsimp only
    have hput : M.stock.vacate.pooled.put c = (M.stock.vacate.put c).pooled := by
      refine (Stock.put_pooled c fun hs => ?_).symm
      rw [Stock.contexts_vacate]
      exact hbare (by rwa [Stock.isPool_congr M.stock.config?_vacate] at hs)
    rw [hput]
    exact ((h'.setStock m M (M.stock.vacate.put c)).wakeOne m chosen).conclude i aim _
  · rw [if_neg hk, if_neg hk]
    have hpool : M.stock.vacate.isPool = M.stock.isPool :=
      Stock.isPool_congr M.stock.config?_vacate
    cases hs : M.stock.isPool with
    | true =>
      have hsame : M.stock.vacate.pooled = M.stock.vacate := by
        cases hstock : M.stock with
        | pool config active idle => rfl
        | single slot out => rw [hstock] at hs; cases hs
      rw [hsame] at hset ⊢
      rw [hpool, hs]
      exact (hset.wakeOne m chosen).put i (.evicting m aim c)
    | false =>
      have hone : M.stock.vacate.pooled.isPool = true := by
        cases hstock : M.stock with
        | pool config active idle => rfl
        | single slot out => rfl
      rw [hpool, hs, hone]
      have hnone : (t.setManager m (some (M.pooled.withStock M.stock.vacate.pooled))).sleepers m =
          [] := by
        show t.sleepers m = []
        rw [h.sleepers]
        exact hawake (Manager.closed_of_not_keeps hs (by simpa using hk))
      rw [if_pos rfl, if_neg (by decide), wakeOne_of_sleepers_nil hnone]
      exact hset.put i (.evicting m aim c)

theorem giveBack (h : Mirrored s t) (i : Nat) (m : ManagerId) (aim : Aim) (c : Context σ)
    {n : Tally} (hb : Bounded M n) (hheld : c.owner = some m → 0 < n.held)
    (hawake : M.poisoned = false → M.closed = true → s.sleepers m = []) (chosen : Nat) :
    Mirrored (s.giveBack i m aim c M chosen) (t.giveBack i m aim c M.pooled chosen) := by
  unfold State.giveBack
  by_cases ho : c.owner ≠ some m
  · rw [if_pos ho, if_pos ho]
    exact h.refuse i m aim c
  rw [if_neg ho, if_neg ho]
  rw [ne_eq, Decidable.not_not] at ho
  by_cases hp : M.poisoned = true
  · rw [if_pos hp, if_pos (show M.pooled.poisoned = true from hp),
      destroyFor_unarmed h.unarmed, destroyFor_unarmed h.unarmed']
    exact (h.wreck c).conclude i aim _
  rw [if_neg hp, if_neg (show ¬M.pooled.poisoned = true from hp)]
  rw [Bool.not_eq_true] at hp
  exact h.takeBack i m aim c hb (hheld ho) (hawake hp) chosen

theorem discard (h : Mirrored s t) (unwinding : Bool) (m : ManagerId) (M : Manager σ)
    (c : Context σ) : ∃ s' t', s.discard unwinding m M c = (s', false) ∧
      t.discard unwinding m M.pooled c = (t', false) ∧ Mirrored s' t' := by
  have hset : Mirrored (s.setManager m (some (M.countDestroyed 1)))
      (t.setManager m (some (M.pooled.countDestroyed 1))) :=
    h.setManager m (some (M.countDestroyed 1))
  refine ⟨_, _, discard_unarmed h.unarmed .., discard_unarmed h.unarmed' .., Mirrored.wreck ?_ c⟩
  cases M.stock.isPool <;> cases M.pooled.stock.isPool
  · exact hset
  · exact hset.record_right rfl
  · exact hset.record_left rfl
  · exact hset.record rfl

theorem evict (h : Mirrored s t) (i : Nat) (m : ManagerId) (aim : Aim) (c : Context σ)
    (M : Manager σ) : Mirrored (s.evict i m aim c M) (t.evict i m aim c M.pooled) := by
  unfold State.evict
  obtain ⟨s', t', hs, ht, h'⟩ := h.discard aim.isUnwinding m M c
  rw [hs, ht]
  exact h'.conclude i aim _

/-! ## Shutting down and dropping -/

theorem stop (h : Mirrored s t) (i : Nat) (m : ManagerId) (M : Manager σ) :
    Mirrored (s.stop i m M) (t.stop i m M.pooled) := by
  unfold State.stop
  by_cases hp : M.poisoned = true
  · rw [if_pos hp, if_pos (show M.pooled.poisoned = true from hp)]
    exact h.finish i _
  · rw [if_neg hp, if_neg (show ¬M.pooled.poisoned = true from hp), Manager.shut_pooled,
      show M.pooled.stock.active = M.stock.active from M.stock.active_pooled,
      show M.pooled.stock.contexts = M.stock.contexts from M.stock.contexts_pooled]
    exact ((h.setManager m (some M.shut)).wakeAll m).put i (.draining m _ _ _)

/-- Only the reports at the end of a shutdown differ, and whether there is one. -/
theorem drain (h : Mirrored s t) (i : Nat) (m : ManagerId) (active : Nat) (first : Bool)
    (M : Manager σ) (contexts : List (Context σ)) :
    Mirrored (s.drain i m active first M contexts)
      (t.drain i m active first M.pooled contexts) := by
  cases contexts with
  | cons c rest =>
    rw [State.drain, State.drain]
    obtain ⟨s', t', hs, ht, h'⟩ := h.discard false m M c
    rw [hs, ht]
    exact h'.put i (.draining m active first rest)
  | nil =>
    rw [State.drain, State.drain]
    cases he : stopEvent? m M.stock active first with
    | none =>
      cases he' : stopEvent? m M.pooled.stock active first with
      | none => exact h.finish i _
      | some e' =>
        dsimp only
        rw [report_unarmed h.unarmed']
        exact (h.record_right (stopEvent?_ended? he')).finish i _
    | some e =>
      cases he' : stopEvent? m M.pooled.stock active first with
      | none =>
        dsimp only
        rw [report_unarmed h.unarmed]
        exact (h.record_left (stopEvent?_ended? he)).finish i _
      | some e' =>
        dsimp only
        rw [report_unarmed h.unarmed, report_unarmed h.unarmed']
        refine (h.record ?_).finish i _
        rw [stopEvent?_ended? he, stopEvent?_ended? he']

/-- Only the report at the end of a manager differs. -/
theorem dropManager (h : Mirrored s t) (i : Nat) (m : ManagerId) (M : Manager σ) :
    Mirrored (s.dropManager i m M) (t.dropManager i m M.pooled) := by
  have hset : Mirrored (s.setManager m none) (t.setManager m none) := h.setManager m none
  have hpool : M.pooled.stock.isPool = true := by
    unfold Manager.pooled
    cases M.stock <;> rfl
  have hcontexts : M.pooled.stock.contexts = M.stock.contexts := M.stock.contexts_pooled
  -- whatever is reported at the end of the pool of one
  have hright : ∀ {u : State σ}, Mirrored u ((t.setManager m none).wreckAll M.stock.contexts) →
      Mirrored (u.finish i .done) (t.dropManager i m M.pooled) := by
    intro u hu
    unfold State.dropManager
    dsimp only
    rw [hpool, if_pos rfl, hcontexts, destroyAll_unarmed hset.unarmed']
    cases he : dropEvent? m M.pooled with
    | none => exact hu.finish i .done
    | some e =>
      simp only [report_unarmed hu.unarmed']
      exact (hu.record_right (dropEvent?_ended? he)).finish i .done
  unfold State.dropManager
  dsimp only
  cases M.stock.isPool with
  | true =>
    rw [if_pos rfl, destroyAll_unarmed hset.unarmed]
    have hall := hset.wreckAll M.stock.contexts
    cases he : dropEvent? m M with
    | none => exact hright hall
    | some e =>
      simp only [report_unarmed hall.unarmed]
      exact hright (hall.record_left (dropEvent?_ended? he))
  | false =>
    simp only [Bool.false_eq_true, if_false]
    cases he : dropEvent? m M with
    | none =>
      simp only [destroyAll_unarmed hset.unarmed]
      exact hright (hset.wreckAll M.stock.contexts)
    | some e =>
      have hrec := hset.record_left (dropEvent?_ended? he)
      simp only [report_unarmed hset.unarmed, destroyAll_unarmed hrec.unarmed]
      exact hright (hrec.wreckAll M.stock.contexts)

/-! ## Making managers and contexts -/

theorem establish (h : Mirrored s t) (i factory : Nat) (plan : Plan) :
    Mirrored (s.establish i factory plan) (t.establish i factory plan.pooled) := by
  have hbegin : Mirrored (s.takeManagerId.put i (.warming s.nextManager plan factory []))
      (t.takeManagerId.put i (.warming t.nextManager plan.pooled factory [])) := by
    rw [h.nextManager]
    exact h.takeManagerId.put i (.warming s.nextManager plan factory [])
  cases plan with
  | single => exact hbegin
  | pool config =>
    unfold State.establish
    dsimp only [Plan.pooled]
    cases config.fault? with
    | some fault => exact h.finish i _
    | none =>
      dsimp only
      split
      · exact hbegin
      · exact h.takeManagerId.finish i _

theorem firstManager_pooled (plan : Plan) (factory : Nat) {built : List (Context σ)}
    (hl : built.length = plan.startCount) :
    firstManager plan.pooled factory built = (firstManager plan factory built).pooled := by
  cases plan with
  | pool config => rfl
  | single =>
    match built, hl with
    | [c], _ => rfl

/-- **A pool of one is made as a manager of one is.** -/
theorem warm (h : Mirrored s t) (i : Nat) (m : ManagerId) (plan : Plan) (factory : Nat)
    {built : List (Context σ)} (hl : built.length ≤ plan.startCount) :
    Mirrored (s.warm i m plan factory built) (t.warm i m plan.pooled factory built) := by
  unfold State.warm
  rw [Plan.startCount_pooled, h.factories]
  split
  · obtain ⟨s', t', b, hs, ht, h'⟩ := h.build factory
    rw [hs, ht]
    cases b with
    | context c => exact h'.put i (.warming m plan factory _)
    | panicked payload => exact (h'.wreckAll built).finish i _
    | failed e =>
      dsimp only
      rw [destroyAll_unarmed h'.unarmed, destroyAll_unarmed h'.unarmed']
      exact (h'.wreckAll built).finish i _
  · rename_i hn
    have hlen : built.length = plan.startCount := by omega
    dsimp only
    rw [firstManager_pooled plan factory hlen, report_unarmed h.unarmed, report_unarmed h.unarmed']
    refine Mirrored.finish (Mirrored.setManager (h.record ?_) m (some _)) i _
    rw [madeEvent_ended?, madeEvent_ended?]

theorem create (h : Mirrored s t) (i factory : Nat) :
    Mirrored (s.create i factory) (t.create i factory) := by
  unfold State.create
  obtain ⟨s', t', b, hs, ht, h'⟩ := h.build factory
  rw [hs, ht]
  cases b with
  | context c => exact h'.put i (.holding .direct c)
  | panicked payload => exact h'.finish i _
  | failed e => exact h'.finish i _

end Mirrored
end State
end Lending
end HookPool
