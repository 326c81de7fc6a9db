/-
# Openers with a time limit

An opener may be told a span, after which it gives up.  It looks for a context before it looks at
the clock, so that it takes what is there even if it is late, and gives up only if it has found
nothing after its time (`look_eq`).  Until then its turns have done nothing to any manager
(`Opens.handsOff`), so that whoever sleeps is no worse off for it: as many openers are about to have
the lock as could be served (`Reachable.heeded`).

A span that leads beyond what the clock can show is as good as none (`deadline?_eq_none`).

Main statement: an opener gives up neither too early nor with something at hand (`Opens.timed`).
-/
import HookPool.Proofs.Lending.Opener
import HookPool.Proofs.Lending.Wakeup

namespace HookPool
namespace Lending

variable {σ : Type}

namespace Place

/-- The opener is about to have the manager's lock. -/
@[simp] def asks (k : ManagerId) : Place σ → Nat
  | .asking r => if r.manager = k then 1 else 0
  | _ => 0

/-- The opener waits, awake or asleep. -/
def isWaiting : Place σ → Bool
  | .asking _ | .asleep _ => true
  | _ => false

end Place

theorem totalAt_le {f g : Nat → Place σ → Nat} {places : List (Place σ)}
    (h : ∀ i p, f i p ≤ g i p) : totalAt f places ≤ totalAt g places := by
  induction places generalizing f g with
  | nil => exact Nat.le_refl 0
  | cons p places ih => exact Nat.add_le_add (h 0 p) (ih fun i p => h (i + 1) p)

namespace State

variable {invoke : Invoke σ} {s t t' : State σ} {mv : Move σ} {moves : List (Move σ)}
  {i chosen : Nat} {p : Place σ} {u : Upshot σ} {m : ManagerId} {M : Manager σ} {r : Request}
  {purpose : Purpose} {timeout : Option Duration} {after d : Duration}

/-! ## Those who sleep meanwhile -/

/-- Whoever heeds a signal is about to have the lock. -/
theorem heeding_le (s : State σ) (signalled : Nat → Bool) (k : ManagerId) :
    s.heeding signalled k ≤ total (Place.asks k) s.places := by
  rw [heeding, ← totalAt_eq_total]
  refine totalAt_le fun i p => ?_
  cases p with
  | asking r =>
    rw [Place.heeds, Place.asks]
    split
    · rename_i h
      exact Nat.le_of_eq (if_pos h.2).symm
    · exact Nat.zero_le _
  | _ => exact Nat.le_refl 0

/-- **While somebody sleeps, as many openers are about to have the lock as could be served.** -/
theorem Reachable.heeded (hs : Reachable invoke s) (hM : s.manager? m = some M)
    (hp : M.poisoned = false) (hr : .asleep r ∈ s.places) (hrm : r.manager = m) :
    M.closed = false ∧
      M.stock.maxActive ≤ M.stock.active + total (Place.asks m) s.places := by
  obtain ⟨signalled, hw⟩ := hs.watched
  obtain ⟨-, hheard⟩ := hw.heard hM
  have hpos : 0 < (s.tally signalled m).sleeping := by
    have hone := le_total (Place.sleeps m) hr
    rw [Place.sleeps, if_pos hrm] at hone
    exact hone
  have hheed : M.stock.maxActive ≤ M.stock.active + s.heeding signalled m :=
    hheard.heeded hp hpos
  exact ⟨hheard.isOpen hp hpos, Nat.le_trans hheed (Nat.add_le_add_left (heeding_le ..) _)⟩

/-! ## Openers that wait -/

/-- **Whoever waits has waited before, and its turn has done nothing to a manager.** -/
theorem Turn.waits (h : Turn invoke s i mv p u) (hmv : ∀ operation, mv ≠ .begin i operation)
    (hu : u.place.isWaiting = true) : p.isWaiting = true ∧ u.shift = .keep := by
  have hserved (r : Request) (c : Context σ) : (r.served c).isWaiting ≠ true :=
    r.served_induction c (by simp [Place.isWaiting]) (by simp [Place.isWaiting])
  cases h with
  | beginning => exact absurd rfl (hmv _)
  | opening h =>
    cases h with
    | fellAsleep => exact ⟨rfl, rfl⟩
    | lent | counted => exact absurd hu (hserved _ _)
    | _ => cases hu
  | rousing => exact ⟨rfl, rfl⟩
  | givingBack h | stopping h | making h | dealing h => cases h <;> cases hu
  | works => cases hu

/-- In none of its turns on the run has the caller done anything to a manager. -/
def HandsOff (invoke : Invoke σ) (i : Nat) (s : State σ) (moves : List (Move σ)) : Prop :=
  ∀ before mv rest v v', moves = before ++ mv :: rest → s.run invoke before = some v →
    v.move invoke mv = some v' → mv.isTurnOf i = true → v'.managers = v.managers

/-- **A run spares the managers if its last move does.** -/
theorem HandsOff.append (h : HandsOff invoke i s moves) (hr : s.run invoke moves = some t)
    (hlast : ∀ t', t.move invoke mv = some t' → mv.isTurnOf i = true → t'.managers = t.managers) :
    HandsOff invoke i s (moves ++ [mv]) := by
  intro before mv' rest v v' he hv hm hmv
  obtain ⟨hmoves, hrest⟩ | ⟨more, hmoves, hrest⟩ :
      (moves = before ∧ [mv] = mv' :: rest) ∨
        ∃ more, moves = before ++ mv' :: more ∧ rest = more ++ [mv] := by
    rcases List.eq_nil_or_concat rest with rfl | ⟨more, last, rfl⟩
    · exact .inl (List.append_inj' he rfl)
    · rw [List.concat_eq_append, ← List.cons_append, ← List.append_assoc] at he
      obtain ⟨hmoves, hlast⟩ := List.append_inj' he rfl
      exact .inr ⟨more, hmoves, by rw [List.concat_eq_append, hlast]⟩
  · subst hmoves
    obtain ⟨rfl, -⟩ := List.cons.inj hrest
    obtain rfl := Option.some.inj (hr.symm.trans hv)
    exact hlast v' hm hmv
  · exact h before mv' more v v' hmoves hv hm hmv

theorem HandsOff.single (h : ∀ t, s.move invoke mv = some t → mv.isTurnOf i = true →
    t.managers = s.managers) : HandsOff invoke i s [mv] := by
  have hnone : HandsOff invoke i s [] := fun before mv rest v v' he => by simp at he
  exact hnone.append rfl h

/-- **An opener that waits has done nothing to any manager yet.** -/
theorem Opens.handsOff (h : Opens invoke s i m purpose timeout moves t)
    (hw : (t.placeOf i).isWaiting = true) :
    HandsOff invoke i s (.begin i (.acquire m purpose timeout) :: moves) := by
  refine h.induction (P := fun moves t => (t.placeOf i).isWaiting = true →
    HandsOff invoke i s (.begin i (.acquire m purpose timeout) :: moves)) ?_ ?_ hw
  · rintro t - -
    refine HandsOff.single fun v hv _ => ?_
    obtain ⟨-, rfl, -⟩ := of_begin hv
    exact managers_put s i _
  · intro moves t mv t' h ih hm h' hw
    obtain ⟨-, u, -, hu, hf, hplace⟩ | ⟨hno, hplace⟩ := move_cases hm i
    · obtain ⟨hbefore, hkeep⟩ := hu.waits h'.once_last (hplace ▸ hw)
      refine (ih hbefore).append h.run fun v hv _ => ?_
      obtain rfl := Option.some.inj (hm.symm.trans hv)
      rw [hf.managers, hkeep]
      rfl
    · have hbefore : (t.placeOf i).isWaiting = true := by
        obtain hplace | ⟨r, hr, -⟩ := hplace
        · rwa [← hplace]
        · rw [hr]
          rfl
      refine (ih hbefore).append h.run fun v _ hmv => ?_
      rw [hno] at hmv
      cases hmv

/-! ## Its time -/

/-- **A span that leads beyond what the clock can show is as good as none.** -/
theorem deadline?_eq_none (h : clockEnd ≤ s.clock + after.toNanos) :
    s.deadline? (some after) = none :=
  if_neg (Nat.not_lt.2 h)

theorem deadline?_eq_some (h : s.clock + after.toNanos < clockEnd) :
    s.deadline? (some after) = some ⟨s.clock + after.toNanos, after⟩ :=
  if_pos h

/-- **An opener that finds nothing gives up if its time is over**, and else goes to sleep. -/
theorem look_eq (hM : t.manager? r.manager = some M) (hp : M.poisoned = false)
    (hc : M.closed = false) (ho : M.stock.offer = .full) (hi : t.placeOf i = .asking r)
    (chosen : Nat) : t.move invoke (.run i chosen) = some (t.await i r) := by
  have hat := mem_places_of_placeOf hi (by simp)
  simp only [State.move, step?, hat, withManager, hM, Option.map_some, ask, hp, hc, ho,
    Bool.false_eq_true, if_false]

/-- An opener gives up in its turn from `t` to `t'`, on a manager that is `M`. -/
structure GivesUp (invoke : Invoke σ) (s t t' : State σ) (i : Nat) (m : ManagerId)
    (after : Duration) (moves : List (Move σ)) (mv : Move σ) (M : Manager σ) : Prop where
  /-- It has the lock. -/
  looks : ∃ chosen r, mv = .run i chosen ∧ t.placeOf i = .asking r ∧ r.manager = m
  sound : M.poisoned = false
  isOpen : M.closed = false
  nothing : M.stock.offer = .full
  shown : s.clock + after.toNanos < clockEnd
  late : s.clock + after.toNanos ≤ t.clock
  leaves : t' = t.finish i (.failed (.timeout after))
  handsOff : HandsOff invoke i s (moves ++ [mv])
  /-- Nobody sleeps through what the manager could lend: whoever takes it is awake. -/
  heeded : ∀ later v N r, t'.run invoke later = some v → v.manager? m = some N →
    N.poisoned = false → .asleep r ∈ v.places → r.manager = m →
      N.closed = false ∧ N.stock.maxActive ≤ N.stock.active + total (Place.asks m) v.places

/-- **An opener ends with a time-out only because it gives up**, or because the factory says so. -/
theorem Opens.givesUp (h : Opens invoke s i m purpose (some after) moves t)
    (hm : t.move invoke mv = some t')
    (ho : t'.placeOf i = .finished (.failed (.timeout d))) :
    FailedWith invoke i s (.begin i (.acquire m purpose (some after)) :: moves) (.timeout d) ∨
      d = after ∧ ∃ M, t.manager? m = some M ∧
        GivesUp invoke s t t' i m after (.begin i (.acquire m purpose (some after)) :: moves) mv
          M := by
  have hreq := h.request?
  obtain ⟨hmv, u, -, hu, hf, hplace⟩ | ⟨-, hplace | ⟨r', -, hplace⟩⟩ := move_cases hm i
  case inr.inl =>
    rw [← hplace, ho] at hreq
    cases hreq
  case inr.inr =>
    rw [ho] at hplace
    cases hplace
  rw [ho] at hplace
  obtain ⟨chosen, rfl, hopen⟩ | ⟨-, -, hasks⟩ := hu.opens hreq
  case inr =>
    rw [hasks] at hplace
    cases hplace
  generalize hp : t.placeOf i = p at hopen hreq
  cases hopen with
  | @timedOut r M deadline hM hsound hc hfull hd ht =>
    cases hplace
    obtain rfl := Option.some.inj hreq
    have hdeadline : s.deadline? (some after) = some deadline := hd
    obtain ⟨after, hafter, rfl, hshown⟩ := of_deadline? hdeadline
    cases hafter
    have hoff := h.handsOff (hp ▸ rfl)
    refine .inr ⟨rfl, M, hM, ⟨chosen, _, rfl, hp, rfl⟩, hsound, hc, hfull, hshown, ht, ?_, ?_, ?_⟩
    · rw [look_eq hM hsound hc hfull hp] at hm
      rw [← Option.some.inj hm, await, hd]
      exact if_pos ht
    · refine hoff.append h.run fun v hv _ => ?_
      obtain rfl := Option.some.inj (hm.symm.trans hv)
      exact hf.managers
    · intro later v N r hlater hN hsound' hr hrm
      exact ((h.reaches.move hm).run hlater).heeded hN hsound' hr hrm
  | gaveUp =>
    cases hplace
    exact .inl (h.failedWith hp)
  | lent | counted => exact absurd hplace.symm (served_ne_finished _ _ _)
  | _ => cases hplace

/-- What an opener can count on that gives up `after` it began in `s`, and is under way in `t`. -/
structure Timed (invoke : Invoke σ) (s t : State σ) (i : Nat) (m : ManagerId) (purpose : Purpose)
    (after : Duration) (moves : List (Move σ)) : Prop where
  givesUp : ∀ mv t' d, t.move invoke mv = some t' →
    t'.placeOf i = .finished (.failed (.timeout d)) →
      FailedWith invoke i s moves (.timeout d) ∨
        d = after ∧ ∃ M, t.manager? m = some M ∧ GivesUp invoke s t t' i m after moves mv M
  /-- It looks for a context before it looks at the clock. -/
  takes : ∀ r M chosen, t.placeOf i = .asking r → t.manager? m = some M → M.poisoned = false →
    M.closed = false → M.stock.offer ≠ .full →
      ∃ t', t.move invoke (.run i chosen) = some t' ∧ Taken t t' i r M
  /-- If it finds nothing, it gives up exactly if its time is over. -/
  waits : ∀ r M chosen, t.placeOf i = .asking r → t.manager? m = some M → M.poisoned = false →
    M.closed = false → M.stock.offer = .full → t.move invoke (.run i chosen) = some
      (if s.clock + after.toNanos < clockEnd ∧ s.clock + after.toNanos ≤ t.clock then
        t.finish i (.failed (.timeout after))
      else t.put i (.asleep r))
  /-- A limit that the clock cannot show is none. -/
  unlimited : clockEnd ≤ s.clock + after.toNanos →
    s.move invoke (.begin i (.acquire m purpose (some after))) =
        s.move invoke (.begin i (.acquire m purpose none)) ∧
      ∀ mv t' d, t.move invoke mv = some t' →
        t'.placeOf i = .finished (.failed (.timeout d)) → FailedWith invoke i s moves (.timeout d)

/-- **An opener with a time limit gives up neither too early nor with something at hand.**  Take a
caller that opens a context with a limit, on whatever run of a manager of either kind.  If it ends
with a time-out that is not the factory's own error, then it had the lock of an open manager that
had nothing to give, its time was over, the error has the very span that it was told, it has never
done anything to a manager, and nobody sleeps through what the manager has to give later on.  If
there is something, it takes it, however late it is.  If its time is beyond what the clock can show,
all is as if it had none. -/
theorem Opens.timed (h : Opens invoke s i m purpose (some after) moves t) :
    Timed invoke s t i m purpose after (.begin i (.acquire m purpose (some after)) :: moves) := by
  have hmanager : ∀ {r}, t.placeOf i = .asking r → r = ⟨m, purpose, s.deadline? (some after)⟩ := by
    intro r hi
    have hreq := h.request?
    rw [hi] at hreq
    exact Option.some.inj hreq
  refine ⟨fun mv t' d hm ho => h.givesUp hm ho, fun r M chosen hi hM hp hc ho => ?_,
    fun r M chosen hi hM hp hc ho => ?_, fun hbeyond => ⟨?_, fun mv t' d hm ho => ?_⟩⟩
  · obtain rfl := hmanager hi
    exact taken_of_look hM hp hc ho hi chosen
  · obtain rfl := hmanager hi
    rw [look_eq hM hp hc ho hi, await]
    by_cases hshown : s.clock + after.toNanos < clockEnd
    · rw [deadline?_eq_some hshown]
      simp only [hshown, true_and]
    · rw [deadline?_eq_none (Nat.not_lt.1 hshown), if_neg fun hboth => hshown hboth.1]
  · simp only [State.move, begin?, deadline?_eq_none hbeyond]
    rfl
  · obtain hfactory | ⟨-, M, -, hgives⟩ := h.givesUp hm ho
    · exact hfactory
    · exact absurd hgives.shown (Nat.not_lt.2 hbeyond)

/-- The hypotheses are satisfiable: the context of a pool for one is lent, two openers sleep, one of
them is signalled by the return of the context, is overtaken by a new opener, and finds nothing
after its time. -/
theorem timed_overtaken :
    let moves : List (Move Unit) :=
      [.run 2 0, .begin 3 (.acquire ⟨1⟩ .hold none), .run 3 0, .begin 4 (.acquire ⟨1⟩ .hold none),
        .handle 1 (.close ⟨1⟩), .run 1 2, .run 4 0, .tick 1000000000]
    ∃ s t t' : State Unit,
      Opens inert s 2 ⟨1⟩ .lease (some ⟨1, 0⟩) moves t ∧ t.move inert (.run 2 0) = some t' ∧
        t'.placeOf 2 = .finished (.failed (.timeout ⟨1, 0⟩)) ∧
        t'.placeOf 3 = .asleep ⟨⟨1⟩, .hold, none⟩ ∧
        Timed inert s t 2 ⟨1⟩ .lease ⟨1, 0⟩
          (.begin 2 (.acquire ⟨1⟩ .lease (some ⟨1, 0⟩)) :: moves) := by
  intro moves
  have hopens : Opens inert _ 2 ⟨1⟩ .lease (some ⟨1, 0⟩) moves _ :=
    { reachable := ⟨[plain], [.begin 0 (.establish 0 (.pool ⟨1, 1, 1⟩)), .run 0 0, .run 0 0,
        .begin 1 (.acquire ⟨1⟩ .hold none), .run 1 0], rfl⟩
      run := rfl
      once := by simp [moves]
      unfinished := not_finished_of_request? rfl
      underWay := Option.some_ne_none _ }
  exact ⟨_, _, _, hopens, rfl, rfl, rfl, hopens.timed⟩

end State
end Lending
end HookPool
