/-
# No opener sleeps through what it waits for

A return or a slot that is given up wakes one sleeper, a shutdown wakes all.  Whoever is woken may
be overtaken by an opener that has just come, and sleeps again; it may be past its time, and still
takes what it finds.  So a signal is never lost: while somebody sleeps on a manager that is not
poisoned, as many openers were signalled and have not had the lock yet as could be served.

`Heard` is this invariant.  It counts on `Bounded`, since a manager of one context that has nothing
at hand must have lent it.
-/
import HookPool.Proofs.Lending.Capacity

namespace HookPool
namespace Lending

variable {σ : Type}

/-- While somebody sleeps, the manager is open, and whatever it could still lend is for openers that
were signalled. -/
structure Heard (M : Manager σ) (n : Tally) : Prop where
  isOpen : M.poisoned = false → 0 < n.sleeping → M.closed = false
  heeded : M.poisoned = false → 0 < n.sleeping →
    M.stock.maxActive ≤ M.stock.active + n.heeding

/-- **A manager that has nothing to offer has lent all it may.** -/
theorem Bounded.maxActive_le {M : Manager σ} {n : Tally} (h : Bounded M n)
    (hp : M.poisoned = false) (hc : M.closed = false) (ho : M.stock.offer = .full) :
    M.stock.maxActive ≤ M.stock.active := by
  obtain ⟨hnil, hfull⟩ := Stock.of_offer_full ho
  cases hk : M.stock.isPool with
  | true => exact hfull hk
  | false =>
    have hone := h.single hk hc hp
    rw [hnil, List.length_nil] at hone
    rw [Stock.maxActive_of_not_isPool hk]
    omega

namespace Heard

variable {M M' : Manager σ} {n n' : Tally} {panics locked : Prop} {d : Nat}

/-- Nobody sleeps through what stays as it is. -/
theorem of_stock (h : Heard M n) (hs : M'.stock = M.stock) (hc : M'.closed = M.closed)
    (hp : M'.poisoned = M.poisoned) (hsleep : n'.sleeping ≤ n.sleeping)
    (hheed : n.heeding ≤ n'.heeding) : Heard M' n' := by
  refine ⟨fun hp' hpos => ?_, fun hp' hpos => ?_⟩
  · rw [hc]
    exact h.isOpen (hp ▸ hp') (by omega)
  · have := h.heeded (hp ▸ hp') (by omega)
    rw [hs]
    omega

/-- Nobody sleeps through anything while all is lent. -/
theorem of_full (hc : M'.closed = false) (hfull : M'.stock.maxActive ≤ M'.stock.active) :
    Heard M' n' :=
  ⟨fun _ _ => hc, fun _ _ => by omega⟩

/-- **An opener that takes a context or a slot uses up one signal at the most.** -/
theorem of_taken (h : Heard M n) (hmax : M'.stock.maxActive = M.stock.maxActive)
    (hactive : M'.stock.active = M.stock.active + 1) (hc : M'.closed = M.closed)
    (hp : M'.poisoned = M.poisoned) (hsleep : n'.sleeping = n.sleeping)
    (hheed : n.heeding ≤ n'.heeding + 1) : Heard M' n' := by
  refine ⟨fun hp' hpos => ?_, fun hp' hpos => ?_⟩
  · rw [hc]
    exact h.isOpen (hp ▸ hp') (by omega)
  · have := h.heeded (hp ▸ hp') (by omega)
    omega

/-- **Whatever is freed is for a sleeper that is signalled**, unless nobody is left asleep. -/
theorem of_freed (h : Heard M n) (hmax : M'.stock.maxActive = M.stock.maxActive)
    (hactive : M'.stock.active = M.stock.active - 1) (hc : M'.closed = M.closed)
    (hp : M'.poisoned = M.poisoned) (hsleep : n'.sleeping = n.sleeping - 1)
    (hheed : n'.heeding + (n.sleeping - 1) = n.heeding + n.sleeping) : Heard M' n' := by
  refine ⟨fun hp' hpos => ?_, fun hp' hpos => ?_⟩
  · rw [hc]
    exact h.isOpen (hp ▸ hp') (by omega)
  · have := h.heeded (hp ▸ hp') (by omega)
    omega

/-- A manager with nobody asleep has nobody who sleeps through anything. -/
theorem of_none (hsleep : n'.sleeping = 0) : Heard M' n' := by
  refine ⟨fun _ hpos => ?_, fun _ hpos => ?_⟩
  · omega
  · omega

theorem of_poisoned (hp : M'.poisoned = true) : Heard M' n' := by
  refine ⟨fun hp' => ?_, fun hp' => ?_⟩
  · rw [hp] at hp'
    cases hp'
  · rw [hp] at hp'
    cases hp'

/-- **Every move leaves nobody asleep without a signal.** -/
theorem step (he : Entry panics locked d M n M' n') (hb : Bounded M n) (h : Heard M n) :
    Heard M' n' := by
  cases he with
  | went hl hM ha hn =>
    obtain ⟨-, hsleep, hheed, -, -, -⟩ := hn
    dsimp only at hsleep hheed
    rcases hM with hp | hc | ⟨hp, hc, ho⟩
    · exact of_poisoned hp
    · cases hp : M.poisoned with
      | true => exact of_poisoned hp
      | false =>
        refine of_none (Nat.eq_zero_of_not_pos fun hpos => ?_)
        have := h.isOpen hp (by omega)
        rw [hc] at this
        cases this
    · exact of_full hc (hb.maxActive_le hp hc ho)
  | fellAsleep hl hp hc ho ha hn => exact of_full hc (hb.maxActive_le hp hc ho)
  | lent hl hp hc ho ha hn =>
    obtain ⟨-, hsleep, hheed, -, -, -⟩ := hn
    dsimp only at hsleep hheed
    exact h.of_taken (Stock.maxActive_congr (Stock.config?_of_offer_lent ho))
      (Stock.active_of_offer_lent ho hb.room) rfl rfl (by omega) (by omega)
  | reserved hl hp hc ho ha hn =>
    obtain ⟨-, hsleep, hheed, -, -, -⟩ := hn
    dsimp only at hsleep hheed
    exact h.of_taken (Stock.maxActive_congr (Stock.config?_of_offer_reserved ho))
      (Stock.of_offer_reserved ho).2.2.2 rfl rfl (by omega) (by omega)
  | lentCrash | keptCrash => exact of_poisoned rfl
  | gaveUp hl hn =>
    obtain ⟨-, hsleep, hheed, -, -, -⟩ := hn
    dsimp only at hsleep hheed
    exact h.of_freed (Stock.maxActive_congr (Stock.config?_vacate _)) (Stock.active_vacate _)
      rfl rfl (by omega) (by omega)
  | kept hl hp hk hn =>
    obtain ⟨-, hsleep, hheed, -, -, -⟩ := hn
    dsimp only at hsleep hheed
    refine h.of_freed (Stock.maxActive_congr ?_) ?_ rfl rfl (by omega) (by omega)
    · simp [Manager.withStock]
    · simp [Manager.withStock]
  | turnedAway hl hp hk hn =>
    obtain ⟨-, hsleep, hheed, -, -, -⟩ := hn
    dsimp only at hsleep hheed
    cases hpool : M.stock.isPool with
    | true =>
      rw [hpool] at hsleep hheed
      exact h.of_freed (Stock.maxActive_congr (Stock.config?_vacate _)) (Stock.active_vacate _)
        rfl rfl (by simpa using hsleep) (by simpa using hheed)
    | false =>
      -- nobody sleeps on a manager of one context that is closed
      have hsame : n'.sleeping = n.sleeping := by simpa [hpool] using hsleep
      refine of_none (Nat.eq_zero_of_not_pos fun hpos => ?_)
      have := h.isOpen hp (by omega)
      rw [Manager.closed_of_not_keeps hpool hk] at this
      cases this
  | shut hl hp hn =>
    have hsleep := hn.sleeping
    dsimp only at hsleep
    exact of_none (by omega)
  | still hn | came hn | awoke hn | buildCrash _ hn | counted hn | countedCrash _ hn | lost hn
  | wasted _ hn | discarded hn | drainCrash _ hn =>
    obtain ⟨-, hsleep, hheed, -, -, -⟩ := hn
    dsimp only at hsleep hheed
    exact h.of_stock rfl rfl rfl (by omega) (by omega)

end Heard

namespace State

variable {invoke : Invoke σ} {s : State σ} {signalled : Nat → Bool} {m : ManagerId}
  {M : Manager σ}

theorem Watched.heard (hs : Watched invoke s signalled) (hM : s.manager? m = some M) :
    Bounded M (s.tally signalled m) ∧ Heard M (s.tally signalled m) :=
  ledger_induction (P := fun M n => Bounded M n ∧ Heard M n)
    (fun _ _ _ hl hv => ⟨Bounded.start hl hv, Heard.of_none rfl⟩)
    (fun he h => ⟨h.1.step he, h.2.step he h.1⟩) hs hM

/-- Nobody sleeps on a manager that is closed, wherever a run leads. -/
theorem Reachable.open_of_asleep (hs : Reachable invoke s) (hM : s.manager? m = some M)
    (hp : M.poisoned = false) {r : Request} (hr : .asleep r ∈ s.places) (hrm : r.manager = m) :
    M.closed = false := by
  obtain ⟨signalled, hw⟩ := hs.watched
  have hle := le_total (Place.sleeps m) hr
  rw [Place.sleeps, if_pos hrm] at hle
  exact (hw.heard hM).2.isOpen hp hle

/-- **No wake-up is lost**: on whatever run, if an opener sleeps on a manager that is not poisoned,
and every opener that was signalled has had the lock since, then the manager is open and has
nothing to give. -/
theorem Watched.no_lost_wakeup (hs : Watched invoke s signalled) (hM : s.manager? m = some M)
    (hp : M.poisoned = false)
    (hran : ∀ i r, s.places[i]? = some (.asking r) → r.manager = m → signalled i = false)
    {r : Request} (hr : .asleep r ∈ s.places) (hrm : r.manager = m) :
    M.closed = false ∧
      ((∃ config active, M.stock = .pool config active [] ∧ config.maxActive ≤ active) ∨
        M.stock = .single none true) := by
  obtain ⟨hb, h⟩ := hs.heard hM
  have hpos : 0 < (s.tally signalled m).sleeping := by
    have := le_total (Place.sleeps m) hr
    simp only [Place.sleeps, hrm, if_true] at this
    exact this
  have hnone : (s.tally signalled m).heeding = 0 := heeding_eq_zero hran
  have hfull := h.heeded hp hpos
  have hroom := hb.room
  refine ⟨h.isOpen hp hpos, ?_⟩
  cases hstock : M.stock with
  | pool config active idle =>
    rw [hstock] at hfull hroom
    have hfull : config.maxActive ≤ active + _ := hfull
    have hroom : active + idle.length ≤ config.maxActive := hroom
    obtain rfl := List.length_eq_zero_iff.1 (by omega : idle.length = 0)
    exact .inl ⟨config, active, rfl, by omega⟩
  | single slot out =>
    rw [hstock] at hfull hroom
    cases out with
    | false => exact absurd hfull (by simp [Stock.maxActive, Stock.active, hnone])
    | true =>
      cases slot with
      | none => exact .inr rfl
      | some c => exact absurd hroom (by simp [Stock.maxActive, Stock.active, Stock.contexts])

/-- The hypotheses are satisfiable: of a pool for one, the context is lent, one opener sleeps, and
another one has just come. -/
theorem no_lost_wakeup_one_asleep : ∃ (s : State Unit) (signalled : Nat → Bool) (M : Manager Unit)
    (r : Request), Watched inert s signalled ∧ s.manager? ⟨1⟩ = some M ∧ M.poisoned = false ∧
      (∀ i r, s.places[i]? = some (.asking r) → r.manager = ⟨1⟩ → signalled i = false) ∧
      (∃ (i : Nat) (r : Request), s.places[i]? = some (.asking r)) ∧ .asleep r ∈ s.places ∧
      r.manager = ⟨1⟩ ∧ M.closed = false ∧
        ((∃ config active, M.stock = .pool config active [] ∧ config.maxActive ≤ active) ∨
          M.stock = .single none true) := by
  have hs : Reachable inert _ := ⟨[plain],
    [.begin 0 (.establish 0 (.pool ⟨1, 1, 1⟩)), .run 0 0, .run 0 0,
      .begin 1 (.acquire ⟨1⟩ .hold none), .run 1 0, .begin 2 (.acquire ⟨1⟩ .hold none), .run 2 0],
    rfl⟩
  obtain ⟨before, hw⟩ := hs.watched
  have hw := @Watched.move Unit inert _ _ (.begin 3 (.acquire ⟨1⟩ .hold none)) before hw rfl
  refine ⟨_, _, _, ⟨⟨1⟩, .hold, none⟩, hw, rfl, rfl, ?hran, ⟨3, _, rfl⟩, ?hr, rfl,
    hw.no_lost_wakeup rfl rfl ?hran ?hr rfl⟩
  case hran =>
    intro i r h _
    match i with
    | 0 | 1 | 2 => cases h
    | 3 => rfl
    | i + 4 => cases h
  case hr => exact List.mem_of_getElem? (i := 2) rfl

end State
end Lending
end HookPool
