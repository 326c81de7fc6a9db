/-
# All ways to end a lease are one close

A lease ends when it is released, when it goes out of scope, or when its holder comes to grief.  Without
a lease, a context is opened and closed by hand.  These are four ways to have a context of a manager
for some time (`Way`), and only the caller itself can tell which one it was:

| way | what the caller comes to | what the log is told of an error |
|---|---|---|
| `release`, `close` | it is done, or the error | nothing |
| `leave` | it is done | the error |
| `unwind` | it has panicked | the error |

`Alike` says so of two states: they are the same but for where that one caller is and for what the log
was told of an error.  Main statements:

* A lease on a run began when its holder began to open a context for it, and the holder has begun
  nothing else since (`State.lease_begun`).
* If a lease on a run is replaced by another way to have the context, the states of both runs are
  alike after any number of moves, and the context is closed once in both (`Way.all_ways_alike`), as long as
  the sink does not panic while the caller gives the context back.
-/
import HookPool.Proofs.Lending.Apart
import HookPool.Proofs.Lending.Opener

namespace HookPool
namespace Lending

variable {σ : Type}

/-- A way to have a context of a manager for some time. -/
inductive Way where
  /-- A lease that is released. -/
  | release
  /-- A lease that goes out of scope. -/
  | leave
  /-- A lease whose holder comes to grief. -/
  | unwind (payload : String)
  /-- A context that is opened and closed by hand. -/
  | close

namespace Way

def isLease : Way → Bool
  | .close => false
  | _ => true

/-- What the context is opened for. -/
def purpose : Way → Purpose
  | .close => .hold
  | _ => .lease

/-- What the holder does in the end. -/
def handling (m : ManagerId) : Way → Handling
  | .release => .release
  | .leave => .leave
  | .unwind payload => .unwind payload
  | .close => .close m

/-- What the holder makes of the return. -/
def aim : Way → Aim
  | .release | .close => .close
  | .leave => .leave
  | .unwind payload => .unwind payload

/-- The moves of a run on which a caller has a context: whatever happens in between, and afterwards. -/
def moves (w : Way) (i : Nat) (m : ManagerId) (timeout : Option Duration)
    (between after : List (Move σ)) : List (Move σ) :=
  .begin i (.acquire m w.purpose timeout) :: (between ++ .handle i (w.handling m) :: after)

/-- What an opener asks for that wants the context this way. -/
def asks (w : Way) (r : Request) : Request :=
  { r with purpose := w.purpose }

/-- Where the holder of the context is. -/
def held (w : Way) (m : ManagerId) (c : Context σ) : Place σ :=
  Request.served ⟨m, w.purpose, none⟩ c

/-- Where a caller that opens a context for a lease or holds a lease would be, had it gone this
way. -/
def view (w : Way) : Place σ → Place σ
  | .asking r => .asking (w.asks r)
  | .asleep r => .asleep (w.asks r)
  | .building r => .building (w.asks r)
  | .grown r c => .grown (w.asks r) c
  | .abandoned r e => .abandoned (w.asks r) e
  | .holding (.leased m) c => w.held m c
  | p => p

end Way

/-- The move is one in which the caller begins something. -/
def Move.begins (i : Nat) : Move σ → Bool
  | .begin caller _ => caller = i
  | _ => false

/-- The move is one in which the caller does something with what it holds. -/
def Move.handles (i : Nat) : Move σ → Bool
  | .handle caller _ => caller = i
  | _ => false

namespace State

/-- The context that the caller gives back in the move, if it does. -/
def givesBack (i : Nat) (s : State σ) (mv : Move σ) : List ContextId :=
  match s.placeOf i with
  | .returning _ _ c => if mv.isTurnOf i then [c.id] else []
  | _ => []

/-- The contexts that the caller gives back on a run. -/
def closes (invoke : Invoke σ) (i : Nat) (s : State σ) (moves : List (Move σ)) : List ContextId :=
  s.gather invoke (fun s mv _ => s.givesBack i mv) moves

/-- The sink does not panic at anything that the caller does until it begins something. -/
def EndsQuietly (invoke : Invoke σ) (i : Nat) (s : State σ) : List (Move σ) → Prop
  | [] => True
  | mv :: moves => mv.begins i = true ∨ ∀ t, s.move invoke mv = some t →
      (mv.isTurnOf i = true → Spares s t) ∧ t.EndsQuietly invoke i moves

end State

namespace Way

/-- Where a caller is on the one run and on the other, as long as it has not ended the lease: there is
none, it is being opened, or it is held. -/
inductive Having (b : Way) (m : ManagerId) : Place σ → Place σ → Prop where
  | idle {o : Outcome} : Having b m (.finished o) (.finished o)
  | opening {p : Place σ} {r : Request} (hr : p.request? = some r) (hm : r.manager = m)
    (hp : r.purpose = .lease) : Having b m p (b.view p)
  | held {c : Context σ} (ho : c.owner = some m) : Having b m (.holding (.leased m) c) (b.held m c)

/-- Where a caller is on the one run and on the other while it gives the context back, with what it
has given back and what the log was told.  It is never told that the context is another manager's. -/
inductive Ending (a b : Way) (m : ManagerId) :
    List ContextId → Place σ → Place σ → List Event → List Event → Prop where
  | returning {c : Context σ} (ho : c.owner = some m) :
    Ending a b m [] (.returning m a.aim c) (.returning m b.aim c) [] []
  | evicting {c : Context σ} :
    Ending a b m [c.id] (.evicting m a.aim c) (.evicting m b.aim c) [] []
  | ended {c : ContextId} {result : Except Error Unit}
    (hr : result = .ok () ∨ result = .error .lockFailed) :
    Ending a b m [c] (.finished (a.aim.verdict result)) (.finished (b.aim.verdict result))
      (a.aim.logged result) (b.aim.logged result)

/-- The states on the one run and on the other are the same but for the caller `i`, which has a lease
of `m` on the one run and has the context in the way `b` on the other; the lease ends in the way `a`,
and `closed` are the contexts that the caller has given back. -/
inductive Alike (a b : Way) (i : Nat) (m : ManagerId) :
    List ContextId → State σ → State σ → Prop where
  | having {p q : Place σ} {s t : State σ} (hp : Having b m p q) (h : State.Apart i p q [] [] s t) :
    Alike a b i m [] s t
  | ending {p q : Place σ} {la lb : List Event} {closed : List ContextId} {s t : State σ}
    (hp : Ending a b m closed p q la lb) (h : State.Apart i p q la lb s t) :
    Alike a b i m closed s t
  /-- The caller has begun something else. -/
  | over {p : Place σ} {c : ContextId} {rest : List ContextId} {result : Except Error Unit}
    {s t : State σ} (hr : result = .ok () ∨ result = .error .lockFailed)
    (h : State.Apart i p p (a.aim.logged result) (b.aim.logged result) s t) :
    Alike a b i m (c :: rest) s t

/-! ## What a way changes -/

variable {a b : Way} {m : ManagerId} {p q : Place σ} {la lb : List Event} {closed : List ContextId}

/-- Of a caller that would be elsewhere on another way, everybody else sees the same. -/
theorem faithful_view (b : Way) (i : Nat) : (View.one i (b.view (σ := σ))).Faithful := by
  refine View.faithful_one (fun m p => ?_) (fun m p => ?_) i
  · cases p with
    | holding tenure c => cases tenure <;> cases b <;> rfl
    | _ => rfl
  · cases p with
    | holding tenure c => cases tenure <;> cases b <;> rfl
    | asleep r =>
      by_cases hm : r.manager = m
      · simp [State.awakened, view, asks, hm]
      · simp [State.awakened, view, asks, hm]
    | _ => rfl

theorem opens_view (b : Way) (i : Nat) {r : Request} (hr : r.purpose = .lease) :
    (View.one i (b.view (σ := σ))).Opens i r (b.asks r) := by
  have hseen := congrFun (View.one_self i (b.view (σ := σ)))
  refine ⟨rfl, rfl, hseen _, hseen _, hseen _, fun _ => hseen _, fun _ => hseen _, fun c => ?_,
    fun _ => hseen _⟩
  have hserved : r.served c = .holding (.leased r.manager) c := by rw [Request.served, hr]
  rw [hserved]
  exact hseen _

theorem uses_view {b : Way} (h : p.uses m = false) : (b.view p).uses m = false := by
  cases p with
  | holding tenure c => cases tenure <;> cases b <;> first | exact h | rfl
  | _ => exact h

theorem Ending.request? (h : Ending a b m closed p q la lb) :
    p.request? = none ∧ q.request? = none := by
  cases h <;> exact ⟨rfl, rfl⟩

theorem Ending.uses (h : Ending a b m closed p q la lb) (k : ManagerId) : q.uses k = p.uses k := by
  cases h <;> rfl

theorem Ending.ended_well (c : ContextId) : Ending (σ := σ) a b m [c]
    (.finished (a.aim.verdict (.ok ()))) (.finished (b.aim.verdict (.ok ()))) [] [] := by
  have h : Ending (σ := σ) a b m [c] _ _ _ _ := .ended (.inl rfl)
  rwa [Aim.logged_ok, Aim.logged_ok] at h

theorem uses_held {c : Context σ} {k : ManagerId}
    (h : (Place.holding (.leased m) c).uses k = false) : (b.held m c).uses k = false := by
  cases b <;> first | exact h | rfl

theorem request?_held (b : Way) (m : ManagerId) (c : Context σ) : (b.held m c).request? = none :=
  State.request?_served _ c

end Way

/-- An opener needs the manager that it asks. -/
theorem Place.uses_of_request? {p : Place σ} {r : Request} (h : p.request? = some r)
    (m : ManagerId) : p.uses m = (r.manager == m) := by
  cases p <;> cases h <;> rfl

namespace State

variable {invoke : Invoke σ} {s t s' t' : State σ} {mv : Move σ} {moves between after : List (Move σ)}
  {i chosen : Nat} {a b : Way} {m : ManagerId} {M : Manager σ} {p q : Place σ} {r : Request}
  {la lb : List Event} {closed : List ContextId} {c : Context σ} {u : Upshot σ}

/-! ## As long as the caller has the lease -/

/-- An opener goes on, has its context or has come to an end. -/
theorem Opening.comes (h : Opening s chosen p u) (hr : p.request? = some r) :
    u.place.request? = some r ∨ (∃ c, u.place = r.served c) ∨ ∃ o, u.place = .finished o := by
  cases h with
  | lent | counted =>
    obtain rfl := Option.some.inj hr
    exact .inr (.inl ⟨_, rfl⟩)
  | reserved | fellAsleep | built | buildFailed => exact .inl hr
  | _ => exact .inr (.inr ⟨_, rfl⟩)

/-- Where an opener for a lease has come to, another one would have come to as well. -/
theorem having_of_comes (hs : Reachable invoke s) (hp : r.purpose = .lease)
    (h : (s.placeOf i).request? = some r ∨ (∃ c, s.placeOf i = r.served c) ∨
      ∃ o, s.placeOf i = .finished o) :
    Way.Having b r.manager (s.placeOf i) (b.view (s.placeOf i)) := by
  obtain hr | ⟨c, hc⟩ | ⟨o, ho⟩ := h
  · exact .opening hr rfl hp
  · have hc : s.placeOf i = .holding (.leased r.manager) c := by
      rw [hc, Request.served, hp]
    have hmarked := hs.registered.marked_placeOf i
    rw [hc] at hmarked ⊢
    exact .held hmarked
  · rw [ho]
    exact .idle

/-- **As long as a caller has a lease, whatever happens would also have happened had it gone another
way**, but for the end of the lease. -/
theorem Apart.having (h : Apart i p q [] [] s t) (hp : Way.Having b m p q)
    (hs : Reachable invoke s) (hi : i < s.places.length) (hm : s.move invoke mv = some s')
    (hbegins : mv.begins i = false) (hhandles : mv.handles i = false) :
    ∃ t' p' q', t.move invoke mv = some t' ∧ Apart i p' q' [] [] s' t' ∧ Way.Having b m p' q' := by
  have hmv : ∀ operation, mv ≠ .begin i operation := by
    rintro operation rfl
    simp [Move.begins] at hbegins
  cases hp with
  | @idle o =>
    obtain ⟨t', ht', h'⟩ := h.move_same hi hm
    rw [finished_of_move hm hmv h.here] at h'
    exact ⟨t', _, _, ht', h', .idle⟩
  | @opening _ r hr hrm hlease =>
    subst hrm
    obtain ⟨-, u, -, hu, -, hplace⟩ | ⟨hother, hplace⟩ := move_cases hm i
    · rw [h.here] at hu
      obtain ⟨chosen, rfl, hopening⟩ | ⟨rfl, -, -⟩ := hu.opens hr
      · obtain ⟨t', ht', h'⟩ := h.opens hi (b.faithful_view i) rfl (b.opens_view i hlease) hr hm
        refine ⟨t', _, _, ht', h', having_of_comes (hs.move hm) hlease ?_⟩
        rw [hplace]
        exact hopening.comes hr
      · obtain ⟨rfl, -⟩ := hu.of_asleep
        obtain rfl : s.put i (.asking r) = s' := by
          simpa [State.move, rouse?, place?_of_placeOf h.here hi] using hm
        refine ⟨t.put i (.asking (b.asks r)), _, _, ?_, h.put (Nat.le_of_lt hi) _ _,
          .opening rfl rfl hlease⟩
        simp [State.move, rouse?, place?_of_placeOf h.there (h.length ▸ hi), Way.view]
    · obtain ⟨t', ht', h'⟩ := h.move_other hi (b.faithful_view i) rfl
        (fun m => Way.uses_view) hm hother
      refine ⟨t', _, _, ht', h', having_of_comes (hs.move hm) hlease (.inl ?_)⟩
      obtain hplace | ⟨r', hr', hplace⟩ := hplace
      · rw [hplace, h.here, hr]
      · rw [h.here] at hr'
        rw [hr'] at hr
        rw [hplace]
        exact hr
  | @held c ho =>
    obtain ⟨-, u, -, hu, -, hplace⟩ | ⟨hother, hplace⟩ := move_cases hm i
    · rw [h.here] at hu
      cases hu with
      | @works _ _ script =>
        obtain rfl : s.put i (.holding (.leased m) { c with script }) = s' := by
          simpa [State.move, use?, place?_of_placeOf h.here hi] using hm
        refine ⟨t.put i (b.held m { c with script }), _, _, ?_, h.put (Nat.le_of_lt hi) _ _,
          .held ho⟩
        have hat := place?_of_placeOf h.there (h.length ▸ hi)
        cases b <;> simp [State.move, use?, hat, Way.held, Request.served, Way.purpose]
      | dealing => simp [Move.handles] at hhandles
      | beginning h | opening h | givingBack h | stopping h | making h => cases h
    · obtain ⟨t', ht', h'⟩ := h.move_other hi (View.faithful_instead rfl (b.request?_held m c) i)
        (View.instead_self _ _) (fun k => Way.uses_held) hm hother
      obtain hplace | ⟨r', hr', -⟩ := hplace
      · rw [hplace, h.here, View.instead_self] at h'
        exact ⟨t', _, _, ht', h', .held ho⟩
      · rw [h.here] at hr'
        cases hr'

/-- The manager is there as long as the caller has the lease. -/
theorem Apart.there_having {p' q' : Place σ} {t' : State σ} (h : Apart i p q [] [] s t)
    (hp : Way.Having b m p q) (hs : Reachable invoke s) (hi : i < s.places.length)
    (hm : s.move invoke mv = some s') (hbegins : mv.begins i = false)
    (hM : (∃ o, p = .finished o) ∨ ∃ M, s.manager? m = some M) (h' : Apart i p' q' [] [] s' t') :
    (∃ o, p' = .finished o) ∨ ∃ M, s'.manager? m = some M := by
  have hat := place?_of_placeOf h.here hi
  cases hp with
  | @idle o =>
    have hplace := finished_of_move hm (by rintro operation rfl; simp [Move.begins] at hbegins) h.here
    exact .inl ⟨o, h'.here.symm.trans hplace⟩
  | @opening _ r hr hrm =>
    obtain ⟨o, rfl⟩ | ⟨M, hM⟩ := hM
    · cases hr
    · refine .inr (manager?_of_uses hs.registered hm hM hat ?_)
      rw [Place.uses_of_request? hr, hrm, beq_self_eq_true]
  | held =>
    obtain ⟨_, ⟨⟩⟩ | ⟨M, hM⟩ := hM
    exact .inr (manager?_of_uses hs.registered hm hM hat (beq_self_eq_true m))

/-- **The lease ends**, or the context is closed by hand. -/
theorem Apart.handles (h : Apart i p q [] [] s t) (hp : Way.Having b m p q) (ha : a.isLease = true)
    (hi : i < s.places.length) (hM : (∃ o, p = .finished o) ∨ ∃ M, s.manager? m = some M)
    (hm : s.move invoke (.handle i (a.handling m)) = some s') :
    ∃ t' c, t.move invoke (.handle i (b.handling m)) = some t' ∧ c.owner = some m ∧
      Apart i (.returning m a.aim c) (.returning m b.aim c) [] [] s' t' := by
  obtain ⟨-, u, -, hu, -, -⟩ | ⟨hno, -⟩ := move_cases hm i
  case inr => simp [Move.isTurnOf] at hno
  rw [h.here] at hu
  cases hp with
  | idle =>
    obtain ⟨_, he, -⟩ := hu.of_finished
    cases he
  | opening hr =>
    obtain ⟨_, he, -⟩ | ⟨rfl, -, -⟩ := hu.opens hr
    · cases he
    · cases hu.of_asleep.1
  | @held c ho =>
    obtain ⟨_, ⟨⟩⟩ | ⟨M, hM⟩ := hM
    have hat := place?_of_placeOf h.here hi
    have hat' := place?_of_placeOf h.there (h.length ▸ hi)
    have hM' : t.manager? m = some M := (manager?_of_managers_eq h.managers m).trans hM
    have hends : s.move invoke (.handle i (a.handling m)) =
        some (s.put i (.returning m a.aim c)) := by
      cases a with
      | close => cases ha
      | _ => simp [State.move, handle?, hat, Way.handling, Way.aim]
    obtain rfl := Option.some.inj (hends.symm.trans hm)
    refine ⟨t.put i (.returning m b.aim c), c, ?_, ho, h.put (Nat.le_of_lt hi) _ _⟩
    cases b <;> simp [State.move, handle?, hat', hM', withManager, Way.handling, Way.held,
      Request.served, Way.purpose, Way.aim]

/-! ## While the caller gives the context back -/

theorem Apart.returning (h : Apart i (.returning m a.aim c) (.returning m b.aim c) [] [] s t)
    (hi : i < s.places.length) (ho : c.owner = some m)
    (hm : s.move invoke (.run i chosen) = some s') (hqa : Spares s s')
    (hqb : ∀ t', t.move invoke (.run i chosen) = some t' → Spares t t') :
    ∃ t' p' q' la lb, t.move invoke (.run i chosen) = some t' ∧ Apart i p' q' la lb s' t' ∧
      Way.Ending a b m [c.id] p' q' la lb := by
  have hat := place?_of_placeOf h.here hi
  have hat' := place?_of_placeOf h.there (h.length ▸ hi)
  simp only [State.move, step?, hat] at hm
  obtain ⟨M, hM, rfl⟩ := withManager_eq_some hm
  have hM' : t.manager? m = some M := (manager?_of_managers_eq h.managers m).trans hM
  have ht : t.move invoke (.run i chosen) = some (t.giveBack i m b.aim c M chosen) := by
    simp only [State.move, step?, hat', withManager, hM', Option.map_some]
  rw [giveBack_spared ho (hqb _ ht)] at ht
  rw [giveBack_spared ho hqa]
  obtain ⟨hresult, hclosed⟩ := h.closeOwn hi rfl rfl m c M chosen
  have hi := length_closeOwn s m c M chosen ▸ Nat.le_of_lt hi
  have hknown : ∀ {result}, (s.closeOwn m c M chosen).2 = some result → _ := closeOwn_result
  generalize s.closeOwn m c M chosen = closed at hresult hclosed hi hknown ⊢
  generalize t.closeOwn m c M chosen = closed' at ht hresult hclosed
  obtain ⟨s₁, _ | result⟩ := closed <;> obtain ⟨t₁, result'⟩ := closed' <;>
    obtain rfl : result' = _ := hresult
  · exact ⟨_, _, _, _, _, ht, hclosed.put hi _ _, .evicting⟩
  · exact ⟨_, _, _, _, _, ht, (hclosed.recordAll _ _).put hi _ _, .ended (hknown rfl)⟩

theorem Apart.evicting (h : Apart i (.evicting m a.aim c) (.evicting m b.aim c) [] [] s t)
    (hi : i < s.places.length) (hm : s.move invoke (.run i chosen) = some s') (hqa : Spares s s')
    (hqb : ∀ t', t.move invoke (.run i chosen) = some t' → Spares t t') :
    ∃ t', t.move invoke (.run i chosen) = some t' ∧
      Apart i (.finished (a.aim.verdict (.ok ()))) (.finished (b.aim.verdict (.ok ()))) [] []
        s' t' := by
  have hat := place?_of_placeOf h.here hi
  have hat' := place?_of_placeOf h.there (h.length ▸ hi)
  simp only [State.move, step?, hat] at hm
  obtain ⟨M, hM, rfl⟩ := withManager_eq_some hm
  have hM' : t.manager? m = some M := (manager?_of_managers_eq h.managers m).trans hM
  have ht : t.move invoke (.run i chosen) = some (t.evict i m b.aim c M) := by
    simp only [State.move, step?, hat', withManager, hM', Option.map_some]
  rw [evict_spared (hqb _ ht)] at ht
  rw [evict_spared hqa]
  exact ⟨_, ht, (h.discarded hi m M c).put (places_discarded s m M c ▸ Nat.le_of_lt hi) _ _⟩

/-- **While a caller gives a context back, whatever happens would also have happened had it gone
another way.** -/
theorem Apart.ending (h : Apart i p q la lb s t) (hp : Way.Ending a b m closed p q la lb)
    (hi : i < s.places.length) (hm : s.move invoke mv = some s') (hbegins : mv.begins i = false)
    (hqa : mv.isTurnOf i = true → Spares s s')
    (hqb : ∀ t', t.move invoke mv = some t' → mv.isTurnOf i = true → Spares t t') :
    ∃ t' p' q' la' lb', t.move invoke mv = some t' ∧ Apart i p' q' la' lb' s' t' ∧
      Way.Ending a b m (closed ++ s.givesBack i mv) p' q' la' lb' := by
  obtain ⟨hturn, u, -, hu, -, -⟩ | ⟨hother, hplace⟩ := move_cases hm i
  · have hquiet := hqa hturn
    have hquiet' : ∀ t', t.move invoke mv = some t' → Spares t t' := fun t' ht => hqb t' ht hturn
    have hhere := h.here
    cases hp with
    | @returning c ho =>
      rw [hhere] at hu
      obtain ⟨chosen, rfl, -⟩ := hu.of_returning
      obtain ⟨t', p', q', la', lb', ht', h', hp'⟩ := h.returning hi ho hm hquiet hquiet'
      refine ⟨t', p', q', la', lb', ht', h', ?_⟩
      simpa [givesBack, hhere, Move.isTurnOf] using hp'
    | @evicting c =>
      rw [hhere] at hu
      obtain ⟨chosen, rfl, -⟩ := hu.of_evicting
      obtain ⟨t', ht', h'⟩ := h.evicting hi hm hquiet hquiet'
      refine ⟨t', _, _, _, _, ht', h', ?_⟩
      simpa [givesBack, hhere] using Way.Ending.ended_well c.id
    | ended hr =>
      rw [hhere] at hu
      obtain ⟨operation, rfl, -⟩ := hu.of_finished
      simp [Move.begins] at hbegins
  · obtain ⟨hpr, hqr⟩ := hp.request?
    obtain ⟨t', ht', h'⟩ := h.move_other hi (View.faithful_instead hpr hqr i)
      (View.instead_self p q) (fun k hk => (hp.uses k).trans hk) hm hother
    have hplace : s'.placeOf i = p := by
      obtain hplace | ⟨r, hr, -⟩ := hplace
      · rw [hplace, h.here]
      · rw [h.here] at hr
        rw [hr] at hpr
        cases hpr
    have hnone : s.givesBack i mv = [] := by
      unfold givesBack
      split
      · rw [hother]; rfl
      · rfl
    rw [hplace, View.instead_self] at h'
    rw [hnone, List.append_nil]
    exact ⟨t', p, q, la, lb, ht', h', hp⟩

/-- **Whoever has ended its lease begins something new** as if it had gone another way. -/
theorem Apart.ending_begins (h : Apart i p q la lb s t) (hp : Way.Ending a b m closed p q la lb)
    (hi : i < s.places.length) (hm : s.move invoke mv = some s') (hbegins : mv.begins i = true) :
    ∃ t' p' c result, t.move invoke mv = some t' ∧ closed = [c] ∧
      (result = .ok () ∨ result = .error .lockFailed) ∧
        Apart i p' p' (a.aim.logged result) (b.aim.logged result) s' t' := by
  obtain ⟨operation, rfl⟩ : ∃ operation, mv = .begin i operation := by
    cases mv with
    | begin j operation =>
      obtain rfl : j = i := of_decide_eq_true hbegins
      exact ⟨operation, rfl⟩
    | _ => cases hbegins
  obtain ⟨-, u, -, hu, -, -⟩ | ⟨hno, -⟩ := move_cases hm i
  case inr => simp [Move.isTurnOf] at hno
  rw [h.here] at hu
  cases hp with
  | returning =>
    obtain ⟨_, he, -⟩ := hu.of_returning
    cases he
  | evicting =>
    obtain ⟨_, he, -⟩ := hu.of_evicting
    cases he
  | ended hr =>
    obtain ⟨t', ht', h'⟩ := h.begins hi hm
    exact ⟨t', _, _, _, ht', rfl, hr, h'⟩

/-! ## Runs that go on alike -/

/-- The moves `moves'` lead from `t` to a state that stands to `s'` in a relation, and on them the
caller gives back what it gives back on `moves` from `s`. -/
def Parallel (invoke : Invoke σ) (i : Nat) (R : List ContextId → State σ → State σ → Prop)
    (s : State σ) (moves : List (Move σ)) (s' t : State σ) (moves' : List (Move σ)) : Prop :=
  ∃ t', t.run invoke moves' = some t' ∧ t.closes invoke i moves' = s.closes invoke i moves ∧
    R (s.closes invoke i moves) s' t'

variable {R : List ContextId → State σ → State σ → Prop} {mv' : Move σ} {moves' : List (Move σ)}
  {s₁ t₁ : State σ}

theorem Parallel.nil (h : R [] s t) : Parallel invoke i R s [] s t [] :=
  ⟨t, rfl, rfl, h⟩

theorem Parallel.cons (hm : s.move invoke mv = some s₁) (hm' : t.move invoke mv' = some t₁)
    (hback : t.givesBack i mv' = s.givesBack i mv)
    (h : Parallel invoke i (fun closed => R (s.givesBack i mv ++ closed)) s₁ moves s' t₁ moves') :
    Parallel invoke i R s (mv :: moves) s' t (mv' :: moves') := by
  obtain ⟨t', hrun, hcloses, hR⟩ := h
  refine ⟨t', by rw [run, hm']; exact hrun, ?_, ?_⟩
  · rw [closes, closes, gather_cons hm, gather_cons hm', hback]
    exact congrArg _ hcloses
  · rw [closes, gather_cons hm]
    exact hR

theorem givesBack_congr (h : t.placeOf i = s.placeOf i) (mv : Move σ) :
    t.givesBack i mv = s.givesBack i mv := by
  rw [givesBack, givesBack, h]

theorem Apart.givesBack_ending (h : Apart i p q la lb s t) (hp : Way.Ending a b m closed p q la lb)
    (mv : Move σ) : t.givesBack i mv = s.givesBack i mv := by
  unfold givesBack
  rw [h.here, h.there]
  cases hp <;> rfl

/-- Whoever opens a context has begun nothing yet, and asks a manager that is there. -/
theorem of_move_acquire {purpose : Purpose} {timeout : Option Duration}
    (hm : s.move invoke (.begin i (.acquire m purpose timeout)) = some s') :
    ∃ M o, i ≤ s.places.length ∧ s.placeOf i = .finished o ∧ s.manager? m = some M ∧
      ∀ purpose, s.move invoke (.begin i (.acquire m purpose timeout)) =
        some (s.put i (.asking ⟨m, purpose, s.deadline? timeout⟩)) := by
  obtain ⟨-, u, hi, hu, -, -⟩ | ⟨hno, -⟩ := move_cases hm i
  case inr => simp [Move.isTurnOf] at hno
  simp only [State.move, begin?] at hm ⊢
  split at hm
  case isFalse => cases hm
  obtain ⟨M, hM, -⟩ := withManager_eq_some hm
  obtain ⟨o, ho⟩ : ∃ o, s.placeOf i = .finished o := by
    generalize s.placeOf i = p at hu
    cases hu with
    | beginning h => cases h; exact ⟨_, rfl⟩
  exact ⟨M, o, hi, ho, hM, fun purpose => by
    rw [if_pos ‹_›, withManager, hM, Option.map_some]⟩

/-- Whoever has a lease has not given anything back. -/
theorem Apart.givesBack_having (h : Apart i p q [] [] s t) (hp : Way.Having b m p q)
    (mv mv' : Move σ) : s.givesBack i mv = [] ∧ t.givesBack i mv' = [] := by
  unfold givesBack
  rw [h.here, h.there]
  cases hp with
  | idle => exact ⟨rfl, rfl⟩
  | opening hr => cases p <;> first | exact ⟨rfl, rfl⟩ | cases hr
  | held => cases b <;> exact ⟨rfl, rfl⟩

theorem EndsQuietly.take (h : s.EndsQuietly invoke i moves) (n : Nat) :
    s.EndsQuietly invoke i (moves.take n) := by
  induction moves generalizing s n with
  | nil => simpa using h
  | cons mv moves ih =>
    cases n with
    | zero => trivial
    | succ n => exact h.imp id fun h t ht => ⟨(h t ht).1, ih (h t ht).2 n⟩

/-- **Once the caller is at the same place, both runs go on alike.** -/
theorem Apart.parallel (h : Apart i p p la lb s t) (hi : i < s.places.length)
    (hrun : s.run invoke moves = some s') :
    Parallel invoke i (fun _ s' t' => ∃ p', Apart i p' p' la lb s' t') s moves s' t moves := by
  induction moves generalizing s t p with
  | nil =>
    obtain rfl := Option.some.inj hrun
    exact .nil ⟨p, h⟩
  | cons mv moves ih =>
    obtain ⟨s₁, hm, hrun⟩ := run_cons hrun
    obtain ⟨t₁, ht₁, h₁⟩ := h.move_same hi hm
    exact .cons hm ht₁ (givesBack_congr (h.there.trans h.here.symm) mv)
      (ih h₁ (Nat.lt_of_lt_of_le hi (length_places_le hm)) hrun)

theorem Parallel.mono {R' : List ContextId → State σ → State σ → Prop}
    (h : Parallel invoke i R s moves s' t moves')
    (hR : ∀ closed s t, R closed s t → R' closed s t) :
    Parallel invoke i R' s moves s' t moves' := by
  obtain ⟨t', hrun, hcloses, h⟩ := h
  exact ⟨t', hrun, hcloses, hR _ _ _ h⟩

/-- **From the end of the lease on, both runs go on alike.** -/
theorem Apart.parallel_ending (h : Apart i p q la lb s t)
    (hp : Way.Ending a b m closed p q la lb) (hi : i < s.places.length)
    (hqa : s.EndsQuietly invoke i moves) (hqb : t.EndsQuietly invoke i moves)
    (hrun : s.run invoke moves = some s') :
    Parallel invoke i (fun rest => Way.Alike a b i m (closed ++ rest)) s moves s' t moves := by
  induction moves generalizing s t p q la lb closed with
  | nil =>
    obtain rfl := Option.some.inj hrun
    exact .nil (by rw [List.append_nil]; exact .ending hp h)
  | cons mv moves ih =>
    obtain ⟨s₁, hm, hrun⟩ := run_cons hrun
    have hi₁ := Nat.lt_of_lt_of_le hi (length_places_le hm)
    cases hbegins : mv.begins i with
    | true =>
      obtain ⟨t₁, p₁, c, result, ht₁, rfl, hr, h₁⟩ := h.ending_begins hp hi hm hbegins
      refine .cons hm ht₁ (h.givesBack_ending hp mv) ((h₁.parallel hi₁ hrun).mono ?_)
      rintro rest s t ⟨p', h'⟩
      exact .over hr h'
    | false =>
      have hqa := fun s₁ hm => (hqa.resolve_left (by rw [hbegins]; decide)) s₁ hm
      have hqb := fun t₁ hm => (hqb.resolve_left (by rw [hbegins]; decide)) t₁ hm
      obtain ⟨t₁, p₁, q₁, la₁, lb₁, ht₁, h₁, hp₁⟩ :=
        h.ending hp hi hm hbegins (hqa s₁ hm).1 fun t₁ ht₁ => (hqb t₁ ht₁).1
      refine .cons hm ht₁ (h.givesBack_ending hp mv) ?_
      refine (ih h₁ hp₁ hi₁ (hqa s₁ hm).2 (hqb t₁ ht₁).2 hrun).mono fun rest s t h => ?_
      rwa [← List.append_assoc]

end State

/-! ## Where leases come from -/

/-- The caller has a lease of the manager, or opens a context for one. -/
def Place.leases (m : ManagerId) (p : Place σ) : Prop :=
  (∃ r, p.request? = some r ∧ r.manager = m ∧ r.purpose = .lease) ∨
    ∃ c, p = .holding (.leased m) c

namespace State

variable {invoke : Invoke σ} {s : State σ} {mv : Move σ} {moves : List (Move σ)} {i : Nat}
  {m : ManagerId} {p : Place σ} {u : Upshot σ} {factories : List (Factory σ)}

/-- Whoever has a lease after its turn had it before, and has neither begun anything nor ended the
lease; or it has just begun to open a context for one. -/
theorem Turn.leases (h : Turn invoke s i mv p u) (hu : u.place.leases m) :
    p.leases m ∧ mv.begins i = false ∧ mv.handles i = false ∨
      ∃ timeout, mv = .begin i (.acquire m .lease timeout) := by
  obtain ⟨r, hr, rfl, hlease⟩ | ⟨c, hc⟩ := hu
  · have hbefore := fun hmv => h.request? hmv hr
    cases h with
    | beginning h =>
      cases h with
      | opens =>
        obtain rfl := Option.some.inj hr
        obtain rfl : _ = Purpose.lease := hlease
        exact .inr ⟨_, rfl⟩
      | _ => cases hr
    | dealing h => cases h <;> cases hr
    | opening | givingBack | stopping | making | works | rousing =>
      exact .inl ⟨.inl ⟨r, hbefore (fun _ => nofun), rfl, hlease⟩, rfl, rfl⟩
  · cases h with
    | opening h =>
      have hserved : ∀ r : Request, ∀ c', r.served c' = .holding (.leased m) c →
          r.manager = m ∧ r.purpose = .lease := by
        rintro ⟨_, _ | _ | _, _⟩ c' ⟨⟩
        exact ⟨rfl, rfl⟩
      cases h with
      | @lent r | @counted r => exact .inl ⟨.inl ⟨r, rfl, hserved _ _ hc⟩, rfl, rfl⟩
      | _ => cases hc
    | works =>
      cases hc
      exact .inl ⟨.inr ⟨_, rfl⟩, rfl, rfl⟩
    | rousing => cases hc
    | beginning h | givingBack h | stopping h | making h | dealing h => cases h <;> cases hc

/-- **Every lease on a run began when its holder began to open a context for it**, and the holder has
begun nothing else since, nor let go of a context. -/
theorem lease_begun (hrun : (initial factories).run invoke moves = some s)
    (h : (s.placeOf i).leases m) :
    ∃ before timeout between, moves = before ++ .begin i (.acquire m .lease timeout) :: between ∧
      ∀ mv ∈ between, mv.begins i = false ∧ mv.handles i = false := by
  induction moves using List.reverseRecOn generalizing s with
  | nil =>
    obtain rfl := Option.some.inj hrun
    obtain ⟨r, hr, -⟩ | ⟨c, hc⟩ := h
    · cases hr
    · cases hc
  | append_singleton moves mv ih =>
    rw [run_append] at hrun
    obtain ⟨s₀, hbefore, hlast⟩ := Option.bind_eq_some_iff.1 hrun
    obtain ⟨s₁, hm, hs₁⟩ := run_cons hlast
    obtain rfl := Option.some.inj hs₁
    have hmore : (s₀.placeOf i).leases m → mv.begins i = false ∧ mv.handles i = false →
        ∃ before timeout between,
          moves ++ [mv] = before ++ .begin i (.acquire m .lease timeout) :: between ∧
            ∀ mv ∈ between, mv.begins i = false ∧ mv.handles i = false := by
      rintro h₀ hmv
      obtain ⟨before, timeout, between, rfl, hbetween⟩ := ih hbefore h₀
      refine ⟨before, timeout, between ++ [mv], by simp, fun mv' hmv' => ?_⟩
      rcases List.mem_append.1 hmv' with hmv' | hmv'
      · exact hbetween mv' hmv'
      · exact List.mem_singleton.1 hmv' ▸ hmv
    obtain ⟨-, u, -, hu, -, hplace⟩ | ⟨hother, hplace⟩ := move_cases hm i
    · rw [hplace] at h
      obtain ⟨h₀, hmv⟩ | ⟨timeout, rfl⟩ := hu.leases h
      · exact hmore h₀ hmv
      · exact ⟨moves, timeout, [], rfl, by simp⟩
    · refine hmore ?_ ?_
      · obtain hplace | ⟨r, hr, hplace⟩ := hplace
        · rwa [hplace] at h
        · rw [hplace] at h
          rw [hr]
          exact h.imp id nofun
      · cases mv <;> first | exact ⟨rfl, rfl⟩ | exact ⟨hother, rfl⟩ | exact ⟨rfl, hother⟩

end State

namespace Way

variable {invoke : Invoke σ} {s s' t : State σ} {i n : Nat} {a b : Way} {m : ManagerId}
  {timeout : Option Duration} {between after : List (Move σ)} {p q : Place σ}

/-- **From the opening of a context on, both runs go on alike.** -/
theorem Having.parallel (hp : Having b m p q) (h : State.Apart i p q [] [] s t)
    (ha : a.isLease = true) (hbetween : ∀ mv ∈ between, mv.begins i = false ∧ mv.handles i = false)
    (hs : State.Reachable invoke s) (hi : i < s.places.length)
    (hM : (∃ o, p = .finished o) ∨ ∃ M, s.manager? m = some M)
    (hqa : ∀ s₁, s.run invoke (between ++ [.handle i (a.handling m)]) = some s₁ →
      s₁.EndsQuietly invoke i after)
    (hqb : ∀ t₁, t.run invoke (between ++ [.handle i (b.handling m)]) = some t₁ →
      t₁.EndsQuietly invoke i after)
    (hrun : s.run invoke ((between ++ .handle i (a.handling m) :: after).take n) = some s') :
    State.Parallel invoke i (Alike a b i m) s
      ((between ++ .handle i (a.handling m) :: after).take n) s' t
      ((between ++ .handle i (b.handling m) :: after).take n) := by
  induction between generalizing s t p q n with
  | nil =>
    cases n with
    | zero =>
      obtain rfl := Option.some.inj hrun
      exact .nil (.having hp h)
    | succ n =>
      obtain ⟨s₁, hm, hrun⟩ := State.run_cons hrun
      obtain ⟨t₁, c, ht₁, ho, h₁⟩ := h.handles hp ha hi hM hm
      obtain ⟨hnone, hnone'⟩ := h.givesBack_having hp (.handle i (a.handling m))
        (.handle i (b.handling m))
      refine .cons hm ht₁ (hnone'.trans hnone.symm) ?_
      rw [hnone]
      exact h₁.parallel_ending (.returning ho)
        (Nat.lt_of_lt_of_le hi (State.length_places_le hm)) ((hqa s₁ (State.run_one hm)).take n)
        ((hqb t₁ (State.run_one ht₁)).take n) hrun
  | cons mv between ih =>
    cases n with
    | zero =>
      obtain rfl := Option.some.inj hrun
      exact .nil (.having hp h)
    | succ n =>
      obtain ⟨⟨hbegins, hhandles⟩, hbetween⟩ := List.forall_mem_cons.1 hbetween
      obtain ⟨s₁, hm, hrun⟩ := State.run_cons hrun
      obtain ⟨t₁, p₁, q₁, ht₁, h₁, hp₁⟩ := h.having hp hs hi hm hbegins hhandles
      obtain ⟨hnone, hnone'⟩ := h.givesBack_having hp mv mv
      refine .cons hm ht₁ (hnone'.trans hnone.symm) ?_
      rw [hnone]
      refine ih hp₁ h₁ hbetween (hs.move hm) (Nat.lt_of_lt_of_le hi (State.length_places_le hm))
        (h.there_having hp hs hi hm hbegins hM h₁) (fun s₂ hs₂ => ?_) (fun t₂ ht₂ => ?_) hrun
      · exact hqa s₂ (by rw [List.cons_append, State.run, hm]; exact hs₂)
      · exact hqb t₂ (by rw [List.cons_append, State.run, ht₁]; exact ht₂)

/-- **All ways to end a lease are one close, and so are opening and closing by hand.**  If a caller has
a lease on a run, and the context is had in another way instead, then whatever the number of moves the
states are alike, and what is given back is the same. -/
theorem all_ways_alike (hs : State.Reachable invoke s) (ha : a.isLease = true)
    (hbetween : ∀ mv ∈ between, mv.begins i = false ∧ mv.handles i = false)
    (hquiet : ∀ w ∈ [a, b], ∀ t, s.run invoke (w.moves i m timeout between []) = some t →
      t.EndsQuietly invoke i after)
    (hrun : s.run invoke ((a.moves i m timeout between after).take (n + 1)) = some s') :
    ∃ t', s.run invoke ((b.moves i m timeout between after).take (n + 1)) = some t' ∧
      s.closes invoke i ((b.moves i m timeout between after).take (n + 1)) =
        s.closes invoke i ((a.moves i m timeout between after).take (n + 1)) ∧
      Alike a b i m (s.closes invoke i ((a.moves i m timeout between after).take (n + 1))) s' t' := by
  obtain ⟨s₁, hm, hrun⟩ := State.run_cons hrun
  obtain ⟨M, o, hi, ho, hM, hbegin⟩ := State.of_move_acquire hm
  obtain rfl := Option.some.inj ((hbegin a.purpose).symm.trans hm)
  have hnone : ∀ mv : Move σ, s.givesBack i mv = [] := fun mv => by rw [State.givesBack, ho]
  have hlease : a.purpose = .lease := by
    cases a with
    | close => cases ha
    | _ => rfl
  have h := (State.Apart.refl s i).put hi (.asking ⟨m, a.purpose, s.deadline? timeout⟩)
    (.asking ⟨m, b.purpose, s.deadline? timeout⟩)
  have hp : Having (σ := σ) b m (.asking ⟨m, a.purpose, s.deadline? timeout⟩)
      (.asking ⟨m, b.purpose, s.deadline? timeout⟩) := .opening rfl rfl hlease
  refine State.Parallel.cons (R := Alike a b i m) hm (hbegin b.purpose)
    ((hnone _).trans (hnone _).symm) ?_
  rw [hnone]
  refine hp.parallel h ha hbetween (hs.move hm) ?_ (.inr ⟨M, ?_⟩) (fun s₂ hs₂ => ?_)
    (fun t₂ ht₂ => ?_) hrun
  · rw [State.places_put, putAt]
    split
    · rwa [List.length_set]
    · rw [List.length_append, List.length_singleton]
      omega
  · rw [State.manager?_of_managers_eq (State.managers_put s i _), hM]
  · exact hquiet a (by simp) s₂ (by rw [moves, State.run, hbegin]; exact hs₂)
  · exact hquiet b (by simp) t₂ (by rw [moves, State.run, hbegin]; exact ht₂)

/-- Caller 1 has the only context when caller 2 comes and goes to sleep.  Be it that the lease of
caller 1 goes out of scope, or that caller 1 closes the context by hand: caller 2 is woken, and the
context was given back once. -/
theorem all_ways_alike_with_sleeper :
    let before : List (Move Unit) := [.begin 0 (.establish 0 .single), .run 0 0, .run 0 0]
    let between : List (Move Unit) := [.run 1 0, .begin 2 (.acquire ⟨1⟩ .hold none), .run 2 0]
    let moves (w : Way) : List (Move Unit) := (w.moves 1 ⟨1⟩ none between [.run 1 0]).take 6
    ∃ s s' t' : State Unit, (State.initial [plain]).run inert before = some s ∧
      s.run inert (moves .leave) = some s' ∧ s.run inert (moves .close) = some t' ∧
      s'.outcome? 1 = some .done ∧ s'.sleepers ⟨1⟩ = [] ∧ t'.sleepers ⟨1⟩ = [] ∧
      s.closes inert 1 (moves .close) = [⟨1⟩] ∧ Alike .leave .close 1 ⟨1⟩ [⟨1⟩] s' t' := by
  intro before between moves
  obtain ⟨s, hs⟩ : ∃ s, (State.initial [plain]).run inert before = some s := ⟨_, rfl⟩
  have hfrom : ∀ moves, s.run inert moves = (State.initial [plain]).run inert (before ++ moves) :=
    fun moves => by rw [State.run_append, hs, Option.bind_some]
  have hbetween : ∀ mv ∈ between, mv.begins 1 = false ∧ mv.handles 1 = false := by
    intro mv hmv
    simp only [between, List.mem_cons, List.not_mem_nil, or_false] at hmv
    rcases hmv with rfl | rfl | rfl <;> exact ⟨rfl, rfl⟩
  -- nobody has armed the sink
  have hunarmed : ∀ w ∈ [Way.leave, .close],
      (s.run inert (w.moves 1 ⟨1⟩ none between [])).map State.armed = some none := by
    intro w
    rw [hfrom]
    revert w
    decide +kernel
  have hquiet : ∀ w ∈ [Way.leave, .close], ∀ t, s.run inert (w.moves 1 ⟨1⟩ none between []) =
      some t → t.EndsQuietly inert 1 [.run 1 0] := by
    intro w hw t ht
    have ha := hunarmed w hw
    rw [ht] at ha
    exact .inr fun t' _ => ⟨fun _ _ => Option.some.inj ha, trivial⟩
  have hseen : ∀ w ∈ [Way.leave, .close], (s.run inert (moves w)).map
      (fun t => (t.outcome? 1, t.sleepers ⟨1⟩)) = some (some .done, []) := by
    intro w
    rw [hfrom]
    revert w
    decide +kernel
  obtain ⟨s', hs', hdone⟩ := Option.map_eq_some_iff.1 (hseen .leave (by simp))
  obtain ⟨t', ht', hsame, halike⟩ :=
    all_ways_alike (a := .leave) (b := .close) ⟨[plain], _, hs⟩ rfl hbetween hquiet hs'
  have hcloses : s.closes inert 1 (moves .leave) = [⟨1⟩] := by
    have hall : (State.initial [plain]).closes inert 1 (before ++ moves .leave) = [⟨1⟩] := by
      decide +kernel
    rwa [State.closes, State.gather_append hs] at hall
  have hwoken := hseen .close (by simp)
  rw [ht', Option.map_some] at hwoken
  rw [hcloses] at hsame halike
  exact ⟨s, s', t', hs, hs', ht', congrArg Prod.fst hdone, congrArg Prod.snd hdone,
    congrArg Prod.snd (Option.some.inj hwoken), hsame, halike⟩

end Way

end Lending
end HookPool
