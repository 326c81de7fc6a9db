/-
# A shutdown is final, and tells the truth

Once a caller has had the lock of a manager to shut it down, the manager is closed for ever, and it
is known of each caller that has to do with it what it comes to.  A context can then get into the
hands only of a caller that had its slot before (`Barred.builds`, `Barred.holds`), and what is given
back is destroyed (`Intact.retired`).

`CalmRun.shut_down` puts this together for the shutdown of a manager of either kind at any point of
a run, be it the first or a later one, and any point after it.
-/
import HookPool.Proofs.Lending.Accounting
import HookPool.Proofs.Lending.Course
import HookPool.Proofs.Lending.Refusal
import HookPool.Proofs.Lending.Retired
import HookPool.Proofs.Lending.Wakeup

namespace HookPool
namespace Lending

variable {σ : Type}

namespace State

variable {invoke : Invoke σ} {s t : State σ} {mv : Move σ} {moves : List (Move σ)} {i j : Nat}
  {p : Place σ} {u : Upshot σ} {o : Outcome} {m : ManagerId} {M M' : Manager σ}

/-! ## Contexts -/

/-- A closed manager turns openers away. -/
theorem Intact.barred (h : Intact invoke true s m) : Barred invoke s m .managerClosed :=
  ⟨h.reachable, h.made, fun M hM => Manager.refusal?_of_closed (h.sound M hM) (h.closed M hM rfl)⟩

/-- A closed manager turns away what it has lent. -/
theorem Turn.turned_away {aim : Aim} {c : Context σ}
    (h : Turn invoke s i mv (.returning m aim c) u) (ho : c.owner = some m)
    (hcalm : u.place.isGrieving = false) (hsound : ∀ M, s.manager? m = some M → M.poisoned = false)
    (hclosed : ∀ M, s.manager? m = some M → M.closed = true) : u.place = .evicting m aim c := by
  obtain ⟨_, -, h⟩ := h.of_returning
  cases h with
  | refused _ hne => exact absurd ho hne
  | refusedEnd _ hne => exact absurd ho hne
  | barred hM _ hp => rw [hsound _ hM] at hp; cases hp
  | kept hM _ _ hk => simp [Manager.keeps, hclosed _ hM] at hk
  | keptCrash => cases hcalm
  | turnedAway => rfl

/-- **What a manager does not keep is counted as destroyed** by the time that its return is over. -/
theorem retired_of_evicting {aim : Aim} {c : Context σ} (h : s.run invoke moves = some t)
    (hp : s.placeOf i = .evicting m aim c) (ho : s.outcomeOn invoke i moves = some o) :
    c.id ∈ s.retiredOn invoke m moves := by
  have hnone : s.outcome? i = none := outcome?_eq_none hp nofun
  induction moves generalizing s with
  | nil => rw [outcomeOn, hnone] at ho; cases ho
  | cons mv moves ih =>
    obtain ⟨t₁, hm, h⟩ := run_cons h
    rw [outcomeOn_cons hnone hm] at ho
    rw [retiredOn_cons hm]
    obtain ⟨-, v, -, hv, -, hplace⟩ | ⟨-, hplace | ⟨r, hr, -⟩⟩ := move_cases hm i
    · refine List.mem_append_right _ ?_
      rw [hv.retires_eq rfl, hp, Place.retires, if_pos rfl]
      exact List.mem_singleton_self _
    · have hp' := hplace.trans hp
      exact List.mem_append_left _ (ih h hp' ho (outcome?_eq_none hp' nofun))
    · rw [hp] at hr
      cases hr

/-- **A context that is given back to a closed manager is counted as destroyed** by the time that
its return is over. -/
theorem Intact.retired (h : Intact invoke true s m) (hr : CalmRun invoke s moves t) {aim : Aim}
    {c : Context σ} (hp : s.placeOf i = .returning m aim c) (howner : c.owner = some m)
    (ho : s.outcomeOn invoke i moves = some o) : c.id ∈ s.retiredOn invoke m moves := by
  have hnone : s.outcome? i = none := outcome?_eq_none hp nofun
  induction hr with
  | nil hc => rw [outcomeOn, hnone] at ho; cases ho
  | @cons s t u mv moves hc hm hr ih =>
    rw [outcomeOn_cons hnone hm] at ho
    rw [retiredOn_cons hm]
    refine List.mem_append_left _ ?_
    obtain ⟨-, v, -, hv, -, hplace⟩ | ⟨-, hplace | ⟨r, hr', -⟩⟩ := move_cases hm i
    · -- the manager turns it away, and it is on its way out
      have hcalm := hplace ▸ hr.calm_start.placeOf i
      rw [hp] at hv
      have hout := hv.turned_away howner hcalm h.sound fun M hM => h.closed M hM rfl
      exact retired_of_evicting hr.run (hplace.trans hout) ho
    · have hp' := hplace.trans hp
      exact ih (h.move hm hr.calm_start) hp' ho (outcome?_eq_none hp' nofun)
    · rw [hp] at hr'
      cases hr'

/-! ## Shutdowns -/

/-- What holds from a shutdown of a manager on.  The caller `j` has had the lock for it in a move
from `s`, where the manager was `M`, to `s₁`; later, in `t`, the manager is `M'`.  Until the
shutdown `dropped` contexts of the manager were let go of without being given back, and those that
it counts as destroyed until `t` are `retired`. -/
structure ShutDown (invoke : Invoke σ) (m : ManagerId) (j : Nat) (s : State σ) (M : Manager σ)
    (dropped : Nat) (s₁ t : State σ) (M' : Manager σ) (retired : List ContextId) : Prop where
  closed : M'.closed = true
  /-- Whoever slept is woken, and nobody falls asleep again. -/
  woken : ∀ i r, s.placeOf i = .asleep r → r.manager = m → s₁.placeOf i = .asking r
  awake : ∀ i r, t.placeOf i = .asleep r → r.manager ≠ m
  /-- Whoever comes to have the lock to open a context is told that the manager is closed, which
  changes nothing. -/
  refused : ∀ i r, t.placeOf i = .asking r → r.manager = m →
    (∀ chosen, t.move invoke (.run i chosen) = some (t.finish i (.failed .managerClosed))) ∧
      Comes invoke t i (.failed .managerClosed) 1
  /-- Whoever builds had its slot before, and only such a caller still gets a context. -/
  slots : ∀ i, 0 < (t.placeOf i).builds m →
    0 < (s₁.placeOf i).builds m ∧ (t.placeOf i).request? = (s₁.placeOf i).request?
  reached : ∀ i mv u, t.move invoke mv = some u → (t.placeOf i).holds m < (u.placeOf i).holds m →
    ∃ r c, t.placeOf i = .grown r c ∧ r.manager = m
  idle : M'.stock.contexts = []
  /-- A context that is given back is destroyed and counted so, and its return goes well. -/
  returned : ∀ i aim c, t.placeOf i = .returning m aim c → c.owner = some m →
    Comes invoke t i (aim.verdict (.ok ())) 2 ∧ ∀ moves u o, CalmRun invoke t moves u →
      t.outcomeOn invoke i moves = some o → c.id ∈ t.retiredOn invoke m moves ∧ c.id ∈ u.ended
  /-- The shutdown tells how many contexts were in use. -/
  result : Comes invoke s₁ j (stopOutcome M.stock.active) (M.stock.contexts.length + 1)
  active : M.stock.active =
    total (Place.holds m) s.places + dropped + total (Place.builds m) s.places
  /-- No context is counted as destroyed twice. -/
  once : retired.Nodup ∧ retired.length = M'.destroyed
  /-- If none was in use, so that the shutdown goes well, none ever is again, and all that were made
  are destroyed, or about to be. -/
  settled : M.stock.active = 0 → M'.stock.active = 0 ∧
    (∀ i, (t.placeOf i).builds m = 0 ∧ (t.placeOf i).holds m = 0) ∧
      M'.created = M'.destroyed + total (Place.removes m) t.places

/-- **The lock for a shutdown closes the manager** and leaves the caller with what was at hand. -/
theorem Reachable.shut_of_stopping (hs : Reachable invoke s) (hj : s.placeOf j = .stopping m)
    (hM : s.manager? m = some M) (hp : M.poisoned = false) {chosen : Nat}
    (hm : s.move invoke (.run j chosen) = some t) (hc : t.Calm) :
    Intact invoke true t m ∧ t.manager? m = some M.shut ∧
      t.placeOf j = .draining m M.stock.active (!M.closed) M.stock.contexts := by
  have ht := hs.move hm
  obtain ⟨-, u, -, hu, hf, hplace⟩ | ⟨hturn, -⟩ := move_cases hm j
  · have hman := hs.registered.manager? hu hf m
    rw [hj] at hu
    obtain ⟨_, -, h⟩ := hu.of_stopping
    cases h with
    | barred hM₀ hbad =>
      obtain rfl := Option.some.inj (hM.symm.trans hM₀)
      rw [hp] at hbad
      cases hbad
    | stopped hM₀ =>
      obtain rfl := Option.some.inj (hM.symm.trans hM₀)
      have hshut : t.manager? m = some M.shut := by rw [hman, Shift.lookUp, if_pos rfl]
      refine ⟨⟨ht, hc, ht.registered.not_fresh hshut, fun M' hM' => ?_, fun M' hM' _ => ?_⟩,
        hshut, hplace⟩
      · obtain rfl := Option.some.inj (hshut.symm.trans hM')
        exact hp
      · obtain rfl := Option.some.inj (hshut.symm.trans hM')
        rfl
  · simp [Move.isTurnOf] at hturn

/-- **A shutdown is final and tells the truth.**  Take any run on which nobody comes to grief, any
shutdown of a manager on it, be it the first or not, and any later point at which the manager is
still there. -/
theorem CalmRun.shut_down {factories : List (Factory σ)} {before after : List (Move σ)}
    {s₁ : State σ} {chosen : Nat} (hb : CalmRun invoke (initial factories) before s)
    (hj : s.placeOf j = .stopping m) (hM : s.manager? m = some M)
    (hm : s.move invoke (.run j chosen) = some s₁) (ha : CalmRun invoke s₁ after t)
    (hM' : t.manager? m = some M') :
    ShutDown invoke m j s M ((initial factories).droppedOn invoke m before) s₁ t M'
      ((initial factories).retiredOn invoke m (before ++ .run j chosen :: after)) := by
  have hstart := reachable_initial invoke factories
  have hs : Reachable invoke s := hstart.run hb.run
  -- the balance of the manager at both points
  have hbook := (hb.booked hstart (booked_initial factories m)).balanced M (fun _ => false) hM
  rw [Nat.zero_add] at hbook
  have hall := hb.append (.cons hb.calm_end hm ha)
  have hbook' := (hall.booked hstart (booked_initial factories m)).balanced M' (fun _ => false) hM'
  obtain ⟨h₁, hM₁, hplace₁⟩ := hs.shut_of_stopping hj hM hbook.sound hm ha.calm_start
  have ht := h₁.run ha
  have hclosed := ht.closed M' hM' rfl
  have hsound := ht.sound M' hM'
  have hidle : M'.stock.contexts = [] := (ht.reachable.bounded hM' fun _ => false).bare hclosed
  have hawake : ∀ {u : State σ} {N : Manager σ}, Intact invoke true u m → u.manager? m = some N →
      ∀ i r, u.placeOf i = .asleep r → r.manager ≠ m := by
    intro u N hu hN i r hr hrm
    have hopen := hu.reachable.open_of_asleep hN (hu.sound N hN)
      (List.mem_of_getElem? (mem_places_of_placeOf hr nofun)) hrm
    rw [hu.closed N hN rfl] at hopen
    cases hopen
  refine ⟨hclosed, fun i r hr hrm => ?_, hawake ht hM', fun i r hr hrm => ⟨fun chosen => ?_, ?_⟩,
    fun i => h₁.barred.builds ha.run, fun i mv u hmv => ht.barred.holds hmv, hidle,
    fun i aim c hp ho => ⟨?_, ?_⟩,
    h₁.comes hM₁ (by rw [hplace₁]; exact if_pos rfl), hbook.active, ⟨?_, ?_⟩, fun hzero => ?_⟩
  · -- a sleeper that nobody woke would sleep on a closed manager
    obtain ⟨hturn, -⟩ | ⟨-, hsame | ⟨r', hr', hplace⟩⟩ := move_cases hm i
    · obtain rfl : j = i := of_decide_eq_true hturn
      rw [hj] at hr
      cases hr
    · exact absurd hrm (hawake h₁ hM₁ i r (hsame.trans hr))
    · rw [hr] at hr'
      cases hr'
      exact hplace
  · have hat := mem_places_of_placeOf hr nofun
    subst hrm
    simp [State.move, step?, hat, withManager, hM', ask, hsound, hclosed]
  · exact ht.comes hM' (by rw [hr, Place.course, if_pos ⟨rfl, hrm⟩])
  · exact ht.comes hM' (by rw [hp, Place.course, if_pos ⟨rfl, ho⟩])
  · intro moves u o hu hout
    have hmem := ht.retired hu hp ho hout
    obtain ⟨new, hended, hsub⟩ := retiredOn_sublist hu.run m
    exact ⟨hmem, hended ▸ List.mem_append_left _ (hsub.subset hmem)⟩
  · exact (retiredOn_of_run hall.run m).1
  · have hcount := (retiring_initial factories m).run hstart hall.run
    rw [hcount.destroyed M' hM', Nat.zero_add]
  · have hle := h₁.active_le ha hM₁ hM'
    rw [Manager.stock_shut, Stock.active_emptied] at hle
    have hactive := hbook'.active
    have hsum := hbook'.contexts
    rw [hidle, List.length_nil] at hsum
    have hheld : total (Place.holds m) t.places = 0 := by
      simp only [tally] at hactive
      omega
    have hbuild : total (Place.builds m) t.places = 0 := by
      simp only [tally] at hactive
      omega
    refine ⟨by omega, fun i => ⟨?_, ?_⟩, ?_⟩
    · exact Nat.le_zero.1 (hbuild ▸ placeOf_le_total rfl i)
    · exact Nat.le_zero.1 (hheld ▸ placeOf_le_total rfl i)
    · simp only [tally] at hsum
      omega

/-- The hypotheses are satisfiable: of a pool for two, one context is lent, one is being built, and
one opener sleeps when the pool is shut down; then the builder gets its context, the other one is
given back, and the opener is about to have the lock. -/
theorem shut_down_while_in_use :
    let before : List (Move Unit) :=
      [.begin 0 (.establish 0 (.pool ⟨1, 2, 1⟩)), .run 0 0, .run 0 0,
        .begin 1 (.acquire ⟨1⟩ .hold none), .run 1 0, .begin 2 (.acquire ⟨1⟩ .hold none), .run 2 0,
        .begin 3 (.acquire ⟨1⟩ .lease none), .run 3 0, .begin 4 (.shutDown ⟨1⟩)]
    let after : List (Move Unit) := [.run 2 0, .run 2 0, .handle 1 (.close ⟨1⟩)]
    ∃ (s s₁ t : State Unit) (M M' : Manager Unit) (c d : Context Unit),
      CalmRun inert (initial [plain]) before s ∧ s.placeOf 4 = .stopping ⟨1⟩ ∧
      s.move inert (.run 4 0) = some s₁ ∧ CalmRun inert s₁ after t ∧ M.stock.active = 2 ∧
      t.placeOf 1 = .returning ⟨1⟩ .close c ∧ c.owner = some ⟨1⟩ ∧
      t.placeOf 2 = .holding .direct d ∧ t.placeOf 3 = .asking ⟨⟨1⟩, .lease, none⟩ ∧
      ShutDown inert ⟨1⟩ 4 s M 0 s₁ t M' [] := by
  intro before after
  have hb : CalmRun inert (initial [plain]) before _ :=
    .cons (by decide) rfl (.cons (by decide) rfl (.cons (by decide) rfl (.cons (by decide) rfl
      (.cons (by decide) rfl (.cons (by decide) rfl (.cons (by decide) rfl (.cons (by decide) rfl
        (.cons (by decide) rfl (.cons (by decide) rfl (.nil (by decide)))))))))))
  have ha : CalmRun inert (((initial [plain]).run inert (before ++ [.run 4 0])).get rfl) after _ :=
    .cons (by decide) rfl (.cons (by decide) rfl (.cons (by decide) rfl (.nil (by decide))))
  have h := hb.shut_down rfl rfl (show State.move inert _ (.run 4 0) = _ from rfl) ha rfl
  exact ⟨_, _, _, _, _, _, _, hb, rfl, rfl, ha, rfl, rfl, rfl, rfl, rfl, h⟩

end State
end Lending
end HookPool
