/-
# Callers seen in other places

A view shows callers in other places than those they are in.  Nobody else can tell the difference as
long as a view is faithful: whoever sleeps is seen asleep, and awake when it is woken.  So whatever a
caller does that is seen where it is comes to the same in a state and in a view of it
(`move_viewed`), and the same goes for an opener that is seen opening a context with another purpose
(`step?_viewed_opening`).  Only a manager cannot be dropped while somebody is seen to need it.

What has been reported before matters to nobody either, so that a view may also add events.
-/
import HookPool.Proofs.Lending.Caller
import HookPool.Proofs.Lending.Ledger

namespace HookPool
namespace Lending

variable {σ : Type}

/-- For each caller and each place that it may be in, the place in which it is seen. -/
abbrev View (σ : Type) : Type := Nat → Place σ → Place σ

namespace View

/-- Who sleeps is seen asleep, and is seen awake once it is woken. -/
structure Faithful (v : View σ) : Prop where
  sleepsOn : ∀ k m p, (v k p).sleepsOn m = p.sleepsOn m
  awakened : ∀ k m p, State.awakened m (v k p) = v k (State.awakened m p)

/-- An opener that asks for `r` is seen where one would be that asks for `r'` of the same manager,
with the same patience. -/
structure Opens (v : View σ) (i : Nat) (r r' : Request) : Prop where
  manager : r'.manager = r.manager
  deadline : r'.deadline = r.deadline
  asking : v i (.asking r) = .asking r'
  asleep : v i (.asleep r) = .asleep r'
  building : v i (.building r) = .building r'
  grown : ∀ c, v i (.grown r c) = .grown r' c
  abandoned : ∀ e, v i (.abandoned r e) = .abandoned r' e
  served : ∀ c, v i (r.served c) = r'.served c
  finished : ∀ o, v i (.finished o) = .finished o

theorem Opens.of_home {v : View σ} {i : Nat} (h : v i = id) (r : Request) : v.Opens i r r :=
  ⟨rfl, rfl, congrFun h _, congrFun h _, congrFun h _, fun _ => congrFun h _,
    fun _ => congrFun h _, fun _ => congrFun h _, fun _ => congrFun h _⟩

/-- A caller that is seen elsewhere at first is seen at home in the end, and all others are seen where
they were seen before. -/
structure Homing (v w : View σ) (i : Nat) : Prop where
  home : w i = id
  others : ∀ k, k ≠ i → v k = w k

theorem Homing.of_home {v : View σ} {i : Nat} (h : v i = id) : v.Homing v i :=
  ⟨h, fun _ _ => rfl⟩

/-- One caller is seen elsewhere. -/
def one (i : Nat) (f : Place σ → Place σ) : View σ :=
  fun k => if k = i then f else id

@[simp] theorem one_self (i : Nat) (f : Place σ → Place σ) : one i f i = f :=
  if_pos rfl

theorem one_other {i k : Nat} (h : k ≠ i) (f : Place σ → Place σ) : one i f k = id :=
  if_neg h

theorem faithful_one {f : Place σ → Place σ} (hs : ∀ m p, (f p).sleepsOn m = p.sleepsOn m)
    (ha : ∀ m p, State.awakened m (f p) = f (State.awakened m p)) (i : Nat) :
    (one i f).Faithful := by
  refine ⟨fun k m p => ?_, fun k m p => ?_⟩
  · by_cases hk : k = i
    · rw [hk, one_self, hs]
    · rw [one_other hk, id]
  · by_cases hk : k = i
    · rw [hk, one_self, ha]
    · rw [one_other hk, id, id]

end View

namespace State

/-- The state with callers seen in other places, and with more events before all others. -/
def viewed (v : View σ) (before : List Event) (s : State σ) : State σ :=
  { s with
    places := s.places.mapIdx v
    events := s.events ++ before }

section

variable (v : View σ) (es : List Event) (s : State σ) {w : View σ} {m : ManagerId} {M : Manager σ}
  {i : Nat} {p q : Place σ} {r r' : Request} (c : Context σ) (e : Event)

/-! ## What a state is made of -/

@[simp] theorem factories_viewed : (s.viewed v es).factories = s.factories := rfl

@[simp] theorem clock_viewed : (s.viewed v es).clock = s.clock := rfl

@[simp] theorem armed_viewed : (s.viewed v es).armed = s.armed := rfl

@[simp] theorem manager?_viewed (m : ManagerId) : (s.viewed v es).manager? m = s.manager? m := rfl

@[simp] theorem length_places_viewed : (s.viewed v es).places.length = s.places.length :=
  List.length_mapIdx

theorem place?_viewed (i : Nat) : (s.viewed v es).places[i]? = (s.places[i]?).map (v i) :=
  List.getElem?_mapIdx

@[simp] theorem setManager_viewed (m : ManagerId) (manager : Option (Manager σ)) :
    (s.viewed v es).setManager m manager = (s.setManager m manager).viewed v es := rfl

@[simp] theorem onManager_viewed (m : ManagerId) (f : Manager σ → Manager σ) :
    (s.viewed v es).onManager m f = (s.onManager m f).viewed v es := by
  unfold onManager
  rw [manager?_viewed]
  cases s.manager? m <;> rfl

@[simp] theorem record_viewed : (s.viewed v es).record e = (s.record e).viewed v es := rfl

@[simp] theorem print_viewed (lines : List ByteArray) :
    (s.viewed v es).print lines = (s.print lines).viewed v es := rfl

@[simp] theorem wreck_viewed : (s.viewed v es).wreck c = (s.wreck c).viewed v es := rfl

@[simp] theorem wreckAll_viewed (contexts : List (Context σ)) :
    (s.viewed v es).wreckAll contexts = (s.wreckAll contexts).viewed v es := by
  unfold wreckAll
  induction contexts generalizing s with
  | nil => rfl
  | cons c rest ih => exact ih (s.wreck c)

/-! ## Reports and contexts -/

@[simp] theorem report_viewed :
    (s.viewed v es).report e = (s.report e).map (viewed v es) id := by
  unfold report
  rw [armed_viewed]
  split
  · split <;> rfl
  · rfl

@[simp] theorem reportFor_viewed (unwinding : Bool) :
    (s.viewed v es).reportFor unwinding e = (s.reportFor unwinding e).map (viewed v es) id := by
  cases unwinding with
  | true => rfl
  | false => exact report_viewed v es s e

@[simp] theorem destroyFor_viewed (unwinding : Bool) :
    (s.viewed v es).destroyFor unwinding c = (s.destroyFor unwinding c).map (viewed v es) id :=
  reportFor_viewed v es s _ unwinding

@[simp] theorem destroy_viewed :
    (s.viewed v es).destroy c = (s.destroy c).map (viewed v es) id :=
  destroyFor_viewed v es s c false

@[simp] theorem destroyAll_viewed (contexts : List (Context σ)) :
    (s.viewed v es).destroyAll contexts = (s.destroyAll contexts).map (viewed v es) id := by
  induction contexts generalizing s with
  | nil => rfl
  | cons c rest ih =>
    rw [destroyAll, destroyAll, destroy_viewed]
    rcases s.destroy c with ⟨t, _ | _⟩
    · exact ih t
    · exact congrArg (·, true) (wreckAll_viewed v es t rest)

@[simp] theorem build_viewed (factory : Nat) :
    (s.viewed v es).build factory = (s.build factory).map (viewed v es) id := by
  unfold build
  rw [factories_viewed]
  cases s.factories[factory]? with
  | none => rfl
  | some maker =>
    dsimp only
    split
    · rfl
    · rfl
    · rename_i name script lines _
      have h := report_viewed v es
        { s.print lines with
          factories := s.factories.set factory { maker with asked := maker.asked + 1 }
          contextsMade := s.contextsMade + 1 } (.constructed ⟨s.contextsMade + 1⟩ name)
      simp only [viewed, print] at h ⊢
      rw [h]
      generalize State.report _ _ = r
      rcases r with ⟨t, _ | _⟩ <;> rfl

@[simp] theorem discard_viewed (unwinding : Bool) (m : ManagerId) (M : Manager σ) :
    (s.viewed v es).discard unwinding m M c =
      (s.discard unwinding m M c).map (viewed v es) id := by
  unfold discard
  dsimp only
  rw [setManager_viewed]
  generalize s.setManager m _ = t
  split
  · rw [reportFor_viewed]
    rcases t.reportFor unwinding _ with ⟨t, _ | _⟩
    · exact destroyFor_viewed v es t c unwinding
    · rfl
  · exact destroyFor_viewed v es t c unwinding

/-! ## Places -/

theorem put_eq (i : Nat) (p : Place σ) :
    s.put i p = { s with places := putAt s.places i p } := by
  unfold put putAt
  split <;> rfl

/-- Where a caller was seen does not matter any more once it is put elsewhere. -/
theorem put_viewed_other (hi : i ≤ s.places.length) (h : w i p = q)
    (hothers : ∀ k, k ≠ i → v k = w k) :
    (s.viewed v es).put i q = (s.put i p).viewed w es := by
  have hplaces : putAt (s.viewed v es).places i q = (putAt s.places i p).mapIdx w := by
    apply List.ext_getElem?
    intro k
    rw [getElem?_putAt (by rwa [length_places_viewed]), place?_viewed, List.getElem?_mapIdx,
      getElem?_putAt hi]
    by_cases hk : k = i
    · rw [if_pos hk, if_pos hk, hk, Option.map_some, h]
    · rw [if_neg hk, if_neg hk, hothers k hk]
  rw [put_eq, put_eq, hplaces]
  rfl

/-- Whoever is seen to come to a place is there. -/
theorem put_viewed (hi : i ≤ s.places.length) (h : v i p = q) :
    (s.viewed v es).put i q = (s.put i p).viewed v es :=
  put_viewed_other v es s hi h fun _ _ => rfl

section

variable {v} (hi : i ≤ s.places.length) (hhome : v.Homing w i)

include hi hhome

theorem put_homing (p : Place σ) : (s.viewed v es).put i p = (s.put i p).viewed w es :=
  put_viewed_other v es s hi (congrFun hhome.home p) hhome.others

theorem finish_homing (o : Outcome) :
    (s.viewed v es).finish i o = (s.finish i o).viewed w es :=
  put_homing es s hi hhome _

theorem crash_homing : (s.viewed v es).crash i = (s.crash i).viewed w es :=
  put_homing es s hi hhome _

end

section

variable {v} (hv : v.Faithful)

include hv

@[simp] theorem sleepers_viewed (m : ManagerId) : (s.viewed v es).sleepers m = s.sleepers m := by
  unfold sleepers
  rw [length_places_viewed]
  refine List.filter_congr fun i _ => ?_
  rw [place?_viewed]
  cases s.places[i]? with
  | none => rfl
  | some p => exact hv.sleepsOn i m p

theorem wakeOne_viewed (m : ManagerId) (chosen : Nat) :
    (s.viewed v es).wakeOne m chosen = (s.wakeOne m chosen).viewed v es := by
  unfold wakeOne
  rw [sleepers_viewed es s hv]
  dsimp only
  split
  · simp only [viewed]
    congr 1
    apply List.ext_getElem?
    intro j
    simp only [List.getElem?_modify, List.getElem?_mapIdx]
    cases s.places[j]? with
    | none => simp
    | some p =>
      simp only [Option.map_some]
      split
      · simp [hv.awakened]
      · simp
  · rfl

theorem wakeAll_viewed (m : ManagerId) :
    (s.viewed v es).wakeAll m = (s.wakeAll m).viewed v es := by
  simp only [wakeAll, viewed]
  congr 1
  apply List.ext_getElem?
  intro j
  simp only [List.getElem?_map, List.getElem?_mapIdx]
  cases s.places[j]? with
  | none => rfl
  | some p => exact congrArg some (hv.awakened j m p)

end

/-! ## Steps

None of what a step does beside putting its caller in a place brings a new caller. -/

theorem Aside.within {s t : State σ} {n : Nat} {gone : List ContextId} (a : Aside s t n gone)
    (hi : i ≤ s.places.length) : i ≤ t.places.length := by
  rw [a.places]
  exact hi

@[simp] theorem places_onManager (m : ManagerId) (f : Manager σ → Manager σ) :
    (s.onManager m f).places = s.places := by
  unfold onManager
  split <;> rfl

@[simp] theorem length_wakeOne (m : ManagerId) (chosen : Nat) :
    (s.wakeOne m chosen).places.length = s.places.length := by
  rw [wakeOne_eq]
  exact length_apply (.one m chosen) s.places

@[simp] theorem length_wakeAll (m : ManagerId) :
    (s.wakeAll m).places.length = s.places.length :=
  List.length_map _

section

variable {v} (hi : i ≤ s.places.length)

include hi

/-! ### Opening -/

section

variable (ho : v.Opens i r r')

include ho

theorem serve_viewed : (s.viewed v es).serve i r' c = (s.serve i r c).viewed v es :=
  put_viewed v es s hi (ho.served c)

theorem await_viewed : (s.viewed v es).await i r' = (s.await i r).viewed v es := by
  unfold await
  rw [clock_viewed, ho.deadline]
  split
  · exact put_viewed v es s hi (ho.asleep)
  · split
    · exact put_viewed v es s hi (ho.finished _)
    · exact put_viewed v es s hi (ho.asleep)

theorem ask_viewed : (s.viewed v es).ask i r' M = (s.ask i r M).viewed v es := by
  unfold ask
  rw [ho.manager]
  split
  · exact put_viewed v es s hi (ho.finished _)
  split
  · exact put_viewed v es s hi (ho.finished _)
  split
  · rename_i c stock _
    dsimp only
    rw [setManager_viewed, report_viewed]
    cases h : (s.setManager r.manager (some (M.withStock stock))).report
        (lentEvent r.manager stock c) with
    | mk t panics =>
      have hi : i ≤ t.places.length := (report_aside h).within hi
      cases panics with
      | true =>
        simp only [Prod.map_apply, id, wreck_viewed, onManager_viewed]
        exact put_viewed v es _ (by simpa [wreck, record] using hi) (ho.finished _)
      | false => exact serve_viewed es t c hi ho
  · rw [setManager_viewed]
    exact put_viewed v es _ hi ho.building
  · exact await_viewed es s hi ho

theorem grow_viewed : (s.viewed v es).grow i r' M = (s.grow i r M).viewed v es := by
  unfold grow
  rw [build_viewed, ho.manager]
  cases h : s.build M.factory with
  | mk t b =>
    cases b with
    | context c => exact put_viewed v es t ((build_context h).2.2.within hi) (ho.grown _)
    | failed e =>
      have hi : i ≤ t.places.length := (build_failed h).within hi
      simp only [Prod.map_apply, id, report_viewed]
      cases h : t.report (.buildFailed r.manager e) with
      | mk t panics =>
        have hi : i ≤ t.places.length := (report_aside h).within hi
        cases panics with
        | true => exact put_viewed v es t hi (ho.finished _)
        | false => exact put_viewed v es t hi (ho.abandoned e)
    | panicked payload =>
      obtain ⟨cs, -, a⟩ := build_panicked h
      exact put_viewed v es t (a.within hi) (ho.finished _)

theorem countGrown_viewed :
    (s.viewed v es).countGrown i r' c = (s.countGrown i r c).viewed v es := by
  unfold countGrown
  rw [ho.manager, onManager_viewed, report_viewed]
  cases h : (s.onManager r.manager .countCreated).report (.grew r.manager c.id) with
  | mk t panics =>
    have hi : i ≤ t.places.length := (report_aside h).within (by simpa using hi)
    cases panics with
    | true => exact put_viewed v es (t.wreck c) hi (ho.finished _)
    | false => exact serve_viewed es t c hi ho

theorem abandon_viewed (hv : v.Faithful) (e : Error) (chosen : Nat) :
    (s.viewed v es).abandon i r' e chosen = (s.abandon i r e chosen).viewed v es := by
  unfold abandon
  dsimp only
  rw [ho.manager, onManager_viewed, wakeOne_viewed es _ hv]
  exact put_viewed v es _ (by simpa using hi) (ho.finished _)

end

/-! ### Everything else -/

section

variable (hv : v.Faithful) (hhome : v.Homing w i)

include hhome

theorem callHook_viewed (invoke : Invoke σ) (m : ManagerId) (hook : String)
    (arguments : List HookArg) :
    callHook invoke (s.viewed v es) i m hook arguments c =
      (callHook invoke s i m hook arguments c).viewed w es := by
  unfold callHook
  dsimp only
  rw [print_viewed]
  split
  · exact put_homing es (s.print _) hi hhome _
  · rw [report_viewed]
    cases h : (s.print (invoke c.script hook arguments).printed).report
        (.hookUndefined hook c.name) with
    | mk t panics =>
      have hi : i ≤ t.places.length := (report_aside h).within hi
      cases panics <;> exact put_homing es t hi hhome _

theorem conclude_viewed (aim : Aim) (result : Except Error Unit) :
    (s.viewed v es).conclude i aim result = (s.conclude i aim result).viewed w es := by
  unfold conclude
  split
  · exact finish_homing es s hi hhome _
  · exact finish_homing es s hi hhome _
  · exact finish_homing es s hi hhome _
  · exact finish_homing es s hi hhome _
  · exact finish_homing es s hi hhome _
  · exact finish_homing es s hi hhome _
  · rename_i e
    rw [report_viewed]
    cases h : s.report (.leaseNotReturned e) with
    | mk t panics =>
      have hi : i ≤ t.places.length := (report_aside h).within hi
      cases panics <;> exact finish_homing es t hi hhome _
  · exact finish_homing es s hi hhome _
  · exact finish_homing es (s.record _) hi hhome _

theorem disown_viewed (aim : Aim) :
    (s.viewed v es).disown i aim c = (s.disown i aim c).viewed w es := by
  unfold disown
  rw [reportFor_viewed]
  cases h : s.reportFor aim.isUnwinding (.leaseNotReturned (.foreignContext c.id)) with
  | mk t panics =>
    have hi : i ≤ t.places.length := (reportFor_aside h).within hi
    cases panics with
    | true => exact crash_homing es (t.wreck c) hi hhome
    | false =>
      dsimp only [Prod.map_apply, id]
      rw [destroyFor_viewed]
      cases h : t.destroyFor aim.isUnwinding c with
      | mk t panics =>
        have hi : i ≤ t.places.length := (destroyFor_aside h).within hi
        cases panics with
        | true => exact crash_homing es t hi hhome
        | false => exact conclude_viewed es t hi hhome _ _

theorem refuse_viewed (m : ManagerId) (aim : Aim) :
    (s.viewed v es).refuse i m aim c = (s.refuse i m aim c).viewed w es := by
  unfold refuse
  rw [reportFor_viewed]
  cases h : s.reportFor aim.isUnwinding (.notLentHere c.id m) with
  | mk t panics =>
    have hi : i ≤ t.places.length := (reportFor_aside h).within hi
    cases panics with
    | true => exact crash_homing es (t.wreck c) hi hhome
    | false =>
      cases aim with
      | close => exact put_homing es t hi hhome _
      | reply reply => exact put_homing es t hi hhome _
      | leave => exact disown_viewed es t c hi hhome _
      | unwind payload => exact disown_viewed es t c hi hhome _

include hv in
theorem takeBack_viewed (m : ManagerId) (aim : Aim) (M : Manager σ) (chosen : Nat) :
    (s.viewed v es).takeBack i m aim c M chosen =
      (s.takeBack i m aim c M chosen).viewed w es := by
  unfold takeBack
  dsimp only
  rw [setManager_viewed]
  have hi : i ≤ (s.setManager m (some (M.withStock M.stock.vacate))).places.length := hi
  generalize s.setManager m _ = t at hi ⊢
  split
  · rw [reportFor_viewed]
    cases h : t.reportFor aim.isUnwinding (keptEvent m M.stock.vacate c) with
    | mk t panics =>
      have hi : i ≤ t.places.length := (reportFor_aside h).within hi
      cases panics with
      | true =>
        simp only [Prod.map_apply, id, wreck_viewed, onManager_viewed]
        exact crash_homing es _ (by simpa [wreck, record] using hi) hhome
      | false =>
        simp only [Prod.map_apply, id, setManager_viewed, wakeOne_viewed es _ hv]
        exact conclude_viewed es _ (by simpa [setManager] using hi) hhome _ _
  · split
    · rw [wakeOne_viewed es _ hv]
      exact put_homing es _ (by simpa using hi) hhome _
    · exact put_homing es t hi hhome _

include hv in
theorem giveBack_viewed (m : ManagerId) (aim : Aim) (M : Manager σ) (chosen : Nat) :
    (s.viewed v es).giveBack i m aim c M chosen =
      (s.giveBack i m aim c M chosen).viewed w es := by
  unfold giveBack
  split
  · exact refuse_viewed es s c hi hhome m aim
  split
  · rw [destroyFor_viewed]
    cases h : s.destroyFor aim.isUnwinding c with
    | mk t panics =>
      have hi : i ≤ t.places.length := (destroyFor_aside h).within hi
      cases panics with
      | true => exact crash_homing es t hi hhome
      | false => exact conclude_viewed es t hi hhome _ _
  · exact takeBack_viewed es s c hi hv hhome m aim M chosen

theorem evict_viewed (m : ManagerId) (aim : Aim) (M : Manager σ) :
    (s.viewed v es).evict i m aim c M = (s.evict i m aim c M).viewed w es := by
  unfold evict
  rw [discard_viewed]
  cases h : s.discard aim.isUnwinding m M c with
  | mk t panics =>
    have hi : i ≤ t.places.length := (discard_aside h).within hi
    cases panics with
    | true => exact crash_homing es t hi hhome
    | false => exact conclude_viewed es t hi hhome _ _

include hv in
theorem stop_viewed (m : ManagerId) (M : Manager σ) :
    (s.viewed v es).stop i m M = (s.stop i m M).viewed w es := by
  unfold stop
  split
  · exact finish_homing es s hi hhome _
  · rw [setManager_viewed, wakeAll_viewed es _ hv]
    exact put_homing es _ (by rwa [length_wakeAll]) hhome _

theorem drain_viewed (m : ManagerId) (active : Nat) (first : Bool) (M : Manager σ)
    (contexts : List (Context σ)) :
    (s.viewed v es).drain i m active first M contexts =
      (s.drain i m active first M contexts).viewed w es := by
  cases contexts with
  | cons c rest =>
    rw [drain, drain, discard_viewed]
    cases h : s.discard false m M c with
    | mk t panics =>
      have hi : i ≤ t.places.length := (discard_aside h).within hi
      cases panics with
      | true =>
        simp only [Prod.map_apply, id, wreckAll_viewed]
        exact crash_homing es _ ((wreckAll_aside t rest).within hi) hhome
      | false => exact put_homing es t hi hhome _
  | nil =>
    rw [drain, drain]
    split
    · exact finish_homing es s hi hhome _
    · rename_i e _
      rw [report_viewed]
      cases h : s.report e with
      | mk t panics =>
        have hi : i ≤ t.places.length := (report_aside h).within hi
        cases panics <;> exact finish_homing es t hi hhome _

theorem dropManager_viewed (m : ManagerId) (M : Manager σ) :
    (s.viewed v es).dropManager i m M = (s.dropManager i m M).viewed w es := by
  unfold dropManager
  dsimp only
  rw [setManager_viewed]
  have hi : i ≤ (s.setManager m none).places.length := hi
  generalize s.setManager m none = t at hi ⊢
  cases M.stock.isPool with
  | true =>
    rw [if_pos rfl, if_pos rfl, destroyAll_viewed]
    cases h : t.destroyAll M.stock.contexts with
    | mk t panics =>
      have hi : i ≤ t.places.length := (destroyAll_aside h).within hi
      cases panics with
      | true => exact crash_homing es t hi hhome
      | false =>
        cases dropEvent? m M with
        | none => exact finish_homing es t hi hhome _
        | some e =>
          simp only [Prod.map_apply, id, report_viewed]
          cases h : t.report e with
          | mk t panics =>
            have hi : i ≤ t.places.length := (report_aside h).within hi
            cases panics <;> exact finish_homing es t hi hhome _
  | false =>
    rw [if_neg Bool.false_ne_true, if_neg Bool.false_ne_true]
    cases dropEvent? m M with
    | none =>
      simp only [destroyAll_viewed]
      cases h : t.destroyAll M.stock.contexts with
      | mk t panics =>
        have hi : i ≤ t.places.length := (destroyAll_aside h).within hi
        cases panics <;> exact finish_homing es t hi hhome _
    | some e =>
      simp only [report_viewed]
      cases h : t.report e with
      | mk t panics =>
        have hi : i ≤ t.places.length := (report_aside h).within hi
        cases panics with
        | true =>
          simp only [Prod.map_apply, id, wreckAll_viewed]
          exact crash_homing es _ ((wreckAll_aside t _).within hi) hhome
        | false =>
          simp only [Prod.map_apply, id, destroyAll_viewed]
          cases h : t.destroyAll M.stock.contexts with
          | mk t panics =>
            have hi : i ≤ t.places.length := (destroyAll_aside h).within hi
            cases panics <;> exact finish_homing es t hi hhome _

theorem establish_viewed (factory : Nat) (plan : Plan) :
    (s.viewed v es).establish i factory plan = (s.establish i factory plan).viewed w es := by
  have hwarming : ∀ plan : Plan, (s.viewed v es).takeManagerId.put i
      (.warming (s.viewed v es).nextManager plan factory []) =
        (s.takeManagerId.put i (.warming s.nextManager plan factory [])).viewed w es :=
    fun plan => put_homing es s.takeManagerId hi hhome _
  unfold establish
  cases plan with
  | single => exact hwarming .single
  | pool config =>
    dsimp only
    split
    · exact finish_homing es s hi hhome _
    · split
      · exact hwarming (.pool config)
      · exact finish_homing es s.takeManagerId hi hhome _

theorem warm_viewed (m : ManagerId) (plan : Plan) (factory : Nat) (built : List (Context σ)) :
    (s.viewed v es).warm i m plan factory built =
      (s.warm i m plan factory built).viewed w es := by
  unfold warm
  split
  · rw [build_viewed]
    cases h : s.build factory with
    | mk t b =>
      cases b with
      | context c =>
        exact put_homing es t ((build_context h).2.2.within hi) hhome _
      | failed e =>
        have hi : i ≤ t.places.length := (build_failed h).within hi
        simp only [Prod.map_apply, id, destroyAll_viewed]
        cases h : t.destroyAll built with
        | mk t panics =>
          have hi : i ≤ t.places.length := (destroyAll_aside h).within hi
          cases panics <;> exact finish_homing es t hi hhome _
      | panicked payload =>
        obtain ⟨cs, -, a⟩ := build_panicked h
        simp only [Prod.map_apply, id, wreckAll_viewed]
        exact finish_homing es _ ((a.trans (wreckAll_aside t built)).within hi) hhome _
  · dsimp only
    rw [report_viewed, factories_viewed]
    cases h : s.report (madeEvent m plan
        (((s.factories[factory]?).map Factory.name).getD "") built) with
    | mk t panics =>
      have hi : i ≤ t.places.length := (report_aside h).within hi
      cases panics with
      | true =>
        simp only [Prod.map_apply, id, wreckAll_viewed]
        exact crash_homing es _ ((wreckAll_aside t built).within hi) hhome
      | false => exact finish_homing es (t.setManager m _) hi hhome _

theorem create_viewed (factory : Nat) :
    (s.viewed v es).create i factory = (s.create i factory).viewed w es := by
  unfold create
  rw [build_viewed]
  cases h : s.build factory with
  | mk t b =>
    cases b with
    | context c => exact put_homing es t ((build_context h).2.2.within hi) hhome _
    | failed e => exact finish_homing es t ((build_failed h).within hi) hhome _
    | panicked payload =>
      obtain ⟨cs, -, a⟩ := build_panicked h
      exact finish_homing es t (a.within hi) hhome _

theorem letGo_viewed : (s.viewed v es).letGo i c = (s.letGo i c).viewed w es := by
  unfold letGo
  rw [destroy_viewed]
  cases h : s.destroy c with
  | mk t panics =>
    have hi : i ≤ t.places.length := (destroyFor_aside h).within hi
    cases panics <;> exact finish_homing es t hi hhome _

end

end

/-! ## Moves -/

section

variable {v} {es : List Event} {s} (hv : v.Faithful)

theorem withManager_viewed {f g : Manager σ → State σ} (h : ∀ M, g M = (f M).viewed w es)
    (m : ManagerId) :
    (s.viewed v es).withManager m g = (s.withManager m f).map (viewed w es) := by
  unfold withManager
  rw [manager?_viewed]
  cases s.manager? m with
  | none => rfl
  | some M => exact congrArg some (h M)

/-- A manager that everybody is seen to need who needs it, and nobody else, is seen in use as it
is. -/
theorem inUse_viewed (h : ∀ k p, s.places[k]? = some p → (v k p).uses m = p.uses m) :
    (s.viewed v es).inUse m = s.inUse m := by
  rw [inUse, inUse, Bool.eq_iff_iff, List.any_eq_true, List.any_eq_true]
  constructor
  · rintro ⟨q, hq, huse⟩
    obtain ⟨k, hk⟩ := List.mem_iff_getElem?.1 hq
    rw [place?_viewed] at hk
    obtain ⟨p, hp, rfl⟩ := Option.map_eq_some_iff.1 hk
    exact ⟨p, List.mem_of_getElem? hp, by rwa [h k p hp] at huse⟩
  · rintro ⟨p, hp, huse⟩
    obtain ⟨k, hk⟩ := List.mem_iff_getElem?.1 hp
    refine ⟨v k p, List.mem_of_getElem? (i := k) ?_, ?_⟩
    · rw [place?_viewed, hk, Option.map_some]
    · rwa [h k p hk]

/-- Who is seen at home is where it is seen. -/
theorem place?_of_home (hhome : v i = id) : (s.viewed v es).places[i]? = s.places[i]? := by
  rw [place?_viewed, hhome, Option.map_id, id]

include hv

/-- **A step of an opener that is seen opening a context with another purpose comes to the same.** -/
theorem step?_viewed_opening (invoke : Invoke σ) (ho : v.Opens i r r') (hp : s.places[i]? = some p)
    (hr : p.request? = some r) (chosen : Nat) :
    (s.viewed v es).step? invoke i chosen = (s.step? invoke i chosen).map (viewed v es) := by
  have hi := Nat.le_of_lt (List.getElem?_eq_some_iff.1 hp).1
  unfold step?
  rw [place?_viewed, hp, Option.map_some]
  cases p with
  | asking r₀ =>
    obtain rfl := Option.some.inj hr
    simp only [ho.asking, ho.manager]
    exact withManager_viewed (fun M => ask_viewed es s hi ho) _
  | asleep r₀ =>
    obtain rfl := Option.some.inj hr
    simp only [ho.asleep]
    rfl
  | building r₀ =>
    obtain rfl := Option.some.inj hr
    simp only [ho.building, ho.manager]
    exact withManager_viewed (fun M => grow_viewed es s hi ho) _
  | grown r₀ c =>
    obtain rfl := Option.some.inj hr
    simp only [ho.grown, ho.manager]
    exact withManager_viewed (fun M => countGrown_viewed es s c hi ho) _
  | abandoned r₀ e =>
    obtain rfl := Option.some.inj hr
    simp only [ho.abandoned, ho.manager]
    exact withManager_viewed (fun M => abandon_viewed es s hi ho hv e chosen) _
  | _ => cases hr

theorem step?_viewed (invoke : Invoke σ) (hhome : v i = id) (chosen : Nat) :
    (s.viewed v es).step? invoke i chosen = (s.step? invoke i chosen).map (viewed v es) := by
  cases hp : s.places[i]? with
  | none =>
    unfold step?
    rw [place?_of_home hhome, hp]
    rfl
  | some p =>
    have hi := Nat.le_of_lt (List.getElem?_eq_some_iff.1 hp).1
    cases hr : p.request? with
    | some r => exact step?_viewed_opening hv invoke (.of_home hhome r) hp hr chosen
    | none =>
      unfold step?
      rw [place?_of_home hhome, hp]
      have hhome := View.Homing.of_home hhome
      cases p with
      | asking r | asleep r | building r | grown r c | abandoned r e => cases hr
      | running m hook arguments c =>
        exact congrArg some (callHook_viewed es s c hi hhome invoke m hook arguments)
      | holding tenure c => rfl
      | refused c => rfl
      | returning m aim c =>
        exact withManager_viewed (fun M => giveBack_viewed es s c hi hv hhome m aim M chosen) _
      | evicting m aim c =>
        exact withManager_viewed (fun M => evict_viewed es s c hi hhome m aim M) _
      | stopping m => exact withManager_viewed (fun M => stop_viewed es s hi hv hhome m M) _
      | draining m active first rest =>
        exact withManager_viewed (fun M => drain_viewed es s hi hhome m active first M rest) _
      | warming m plan factory built =>
        exact congrArg some (warm_viewed es s hi hhome m plan factory built)
      | creating factory => exact congrArg some (create_viewed es s hi hhome factory)
      | finished o => rfl

omit hv in
/-- Whoever is seen elsewhere at first is seen at home once it begins something. -/
theorem begin?_viewed (hhome : v.Homing w i) (hfree : (s.viewed v es).isFree i = s.isFree i)
    (operation : Operation)
    (hdrop : ∀ m, operation = .dropManager m → (s.viewed v es).inUse m = s.inUse m) :
    (s.viewed v es).begin? i operation = (s.begin? i operation).map (viewed w es) := by
  unfold begin?
  rw [hfree]
  split
  · have hi : i ≤ s.places.length := le_of_isFree ‹_›
    cases operation with
    | acquire m purpose timeout =>
      exact withManager_viewed (fun _ => put_homing es s hi hhome _) m
    | shutDown m => exact withManager_viewed (fun _ => put_homing es s hi hhome _) m
    | dropManager m =>
      dsimp only
      rw [hdrop m rfl]
      split
      · rfl
      · exact withManager_viewed (fun M => dropManager_viewed es s hi hhome m M) m
    | establish factory plan =>
      dsimp only
      rw [factories_viewed]
      split
      · exact congrArg some (establish_viewed es s hi hhome factory plan)
      · rfl
    | create factory =>
      dsimp only
      rw [factories_viewed]
      split
      · exact congrArg some (put_homing es s hi hhome _)
      · rfl
  · rfl

omit hv in
theorem handle?_viewed (hhome : v i = id) (handling : Handling) :
    (s.viewed v es).handle? i handling = (s.handle? i handling).map (viewed v es) := by
  have hhoming := View.Homing.of_home hhome
  have hi : ∀ {p : Place σ}, s.places[i]? = some p → i ≤ s.places.length := fun hp =>
    Nat.le_of_lt (List.getElem?_eq_some_iff.1 hp).1
  unfold handle?
  rw [place?_of_home hhome]
  split
  · exact withManager_viewed (fun _ => put_homing es s (hi ‹_›) hhoming _) _
  · exact congrArg some (letGo_viewed es s _ (hi ‹_›) hhoming)
  · exact congrArg some (finish_homing es (s.wreck _) (hi ‹_›) hhoming _)
  · exact congrArg some (put_homing es s (hi ‹_›) hhoming _)
  · exact congrArg some (put_homing es s (hi ‹_›) hhoming _)
  · exact congrArg some (put_homing es s (hi ‹_›) hhoming _)
  · exact congrArg some (put_homing es s (hi ‹_›) hhoming _)
  · rfl

/-- **Whatever a caller does that is seen at home comes to the same in a view**, if nobody is seen to
need a manager that is dropped or the other way round. -/
theorem move_viewed (invoke : Invoke σ) {mv : Move σ}
    (hhome : ∀ i, mv.isTurnOf i = true → v i = id)
    (hdrop : ∀ i m, mv = .begin i (.dropManager m) → (s.viewed v es).inUse m = s.inUse m) :
    (s.viewed v es).move invoke mv = (s.move invoke mv).map (viewed v es) := by
  have hput : ∀ {i : Nat} {p q : Place σ}, v i = id → s.places[i]? = some p →
      (s.viewed v es).put i q = (s.put i q).viewed v es := fun hhome hp =>
    put_homing es s (Nat.le_of_lt (List.getElem?_eq_some_iff.1 hp).1) (.of_home hhome) _
  cases mv with
  | begin i operation =>
    have hhome := hhome i (by simp [Move.isTurnOf])
    have hfree : (s.viewed v es).isFree i = s.isFree i := by
      rw [isFree, isFree, place?_of_home hhome, length_places_viewed]
    refine begin?_viewed (.of_home hhome) hfree operation ?_
    rintro m rfl
    exact hdrop i m rfl
  | run i chosen => exact step?_viewed hv invoke (hhome i (by simp [Move.isTurnOf])) chosen
  | handle i handling => exact handle?_viewed (hhome i (by simp [Move.isTurnOf])) handling
  | use i script =>
    have hhome := hhome i (by simp [Move.isTurnOf])
    simp only [move, use?]
    rw [place?_of_home hhome]
    split
    · exact congrArg some (hput hhome ‹_›)
    · rfl
  | rouse i =>
    have hhome := hhome i (by simp [Move.isTurnOf])
    simp only [move, rouse?]
    rw [place?_of_home hhome]
    split
    · exact congrArg some (hput hhome ‹_›)
    · rfl
  | tick nanos => rfl
  | arm text => rfl

end

end

end State
end Lending
end HookPool
