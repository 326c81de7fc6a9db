/-
# A counting semaphore, and the callers of a pool

Who of the openers of a pool waits, who is woken and what each one is told has nothing to do with
the contexts that the pool has at hand: a counting semaphore tells all of it, which knows how many
permits are taken and how far each caller has come.  It has no idle contexts, and neither builds nor
destroys any; the steps in which a caller of a pool does so are hidden from it.

| stance | place of the caller |
|---|---|
| `asking` | `asking` |
| `asleep` | `asleep` |
| `granted` | `building`, `grown`, `holding` |
| `returning` | `returning` |
| `stopping` | `stopping` |
| `finished` | `evicting`, `draining`, `finished` |

`Counts s m M q` says that in the state `s` callers only open and give back contexts of the pool `m`
and shut it down, and that `q` is its semaphore.  As long as the sink is not armed and the factory
loads a script each time, what a caller does comes to the same for the pool and for the semaphore.
-/
import HookPool.Proofs.Lending.Course
import HookPool.Proofs.Lending.Mirror

namespace HookPool
namespace Lending

variable {σ : Type}

/-! ## The semaphore -/

/-- How far a caller has come that takes permits and gives them back. -/
inductive Stance where
  | asking (request : Request)
  | asleep (request : Request)
  /-- It has a permit. -/
  | granted (purpose : Purpose)
  /-- It is about to give its permit back. -/
  | returning
  | stopping
  | finished (outcome : Outcome)
  /-- It does something that has nothing to do with permits. -/
  | elsewhere
  deriving DecidableEq

namespace Stance

def isAsleep : Stance → Bool
  | .asleep _ => true
  | _ => false

/-- What the caller has come to. -/
def outcome? : Stance → Option Outcome
  | .finished o => some o
  | _ => none

/-- What a sleeper does when it is woken: it asks again. -/
def awakened : Stance → Stance
  | .asleep r => .asking r
  | stance => stance

end Stance

/-- A counting semaphore with its callers. -/
structure Semaphore where
  /-- The most permits that may be taken at once. -/
  permits : Nat
  taken : Nat := 0
  closed : Bool := false
  clock : Nat := 0
  callers : List Stance := []
  deriving DecidableEq

namespace Semaphore

/-! ### Callers -/

def stanceOf (q : Semaphore) (i : Nat) : Stance :=
  (q.callers[i]?).getD (.finished .done)

/-- Puts a caller in a stance; a caller with the next number is a new one. -/
def put (q : Semaphore) (i : Nat) (stance : Stance) : Semaphore :=
  if i < q.callers.length then { q with callers := q.callers.set i stance }
  else { q with callers := q.callers ++ [stance] }

/-- The caller is new or has finished. -/
def isFree (q : Semaphore) (i : Nat) : Bool :=
  match q.callers[i]? with
  | none => i = q.callers.length
  | some (.finished _) => true
  | some _ => false

/-- The callers that sleep, the one that came first in front. -/
def sleepers (q : Semaphore) : List Nat :=
  (List.range q.callers.length).filter fun i => (q.callers[i]?).any Stance.isAsleep

/-- Wakes one sleeper: `chosen`, if it is one, and else the first. -/
def wakeOne (q : Semaphore) (chosen : Nat) : Semaphore :=
  match if q.sleepers.contains chosen then some chosen else q.sleepers.head? with
  | some i => { q with callers := q.callers.modify i Stance.awakened }
  | none => q

def wakeAll (q : Semaphore) : Semaphore :=
  { q with callers := q.callers.map Stance.awakened }

/-! ### Taking permits and giving them back -/

/-- When an opener gives up that is told a span. -/
def deadline? (q : Semaphore) (timeout : Option Duration) : Option Deadline :=
  match timeout with
  | none => none
  | some after =>
    let time := q.clock + after.toNanos
    if time < State.clockEnd then some ⟨time, after⟩ else none

/-- An opener that finds all permits taken goes to sleep, or gives up if its time is over. -/
def await (q : Semaphore) (i : Nat) (r : Request) : Semaphore :=
  match r.deadline with
  | none => q.put i (.asleep r)
  | some deadline =>
    if deadline.time ≤ q.clock then q.put i (.finished (.failed (.timeout deadline.after)))
    else q.put i (.asleep r)

/-- **An opener gets a permit exactly if not all are taken.** -/
def ask (q : Semaphore) (i : Nat) (r : Request) : Semaphore :=
  if q.closed then q.put i (.finished (.failed .managerClosed))
  else if q.taken < q.permits then { q with taken := q.taken + 1 }.put i (.granted r.purpose)
  else q.await i r

/-- A permit is given back, and one sleeper is woken. -/
def giveBack (q : Semaphore) (i chosen : Nat) : Semaphore :=
  ({ q with taken := q.taken - 1 }.wakeOne chosen).put i (.finished .done)

/-- The semaphore is closed, and all sleepers are woken. -/
def stop (q : Semaphore) (i : Nat) : Semaphore :=
  ({ q with closed := true }.wakeAll).put i (.finished (stopOutcome q.taken))

/-! ### Moves -/

def begin? (q : Semaphore) (i : Nat) (operation : Operation) : Option Semaphore :=
  if q.isFree i then
    match operation with
    | .acquire m purpose timeout => some (q.put i (.asking ⟨m, purpose, q.deadline? timeout⟩))
    | .shutDown _ => some (q.put i .stopping)
    | _ => none
  else none

def step? (q : Semaphore) (i chosen : Nat) : Option Semaphore :=
  match q.stanceOf i with
  | .asking r => some (q.ask i r)
  | .returning => some (q.giveBack i chosen)
  | .stopping => some (q.stop i)
  | _ => none

/-- A holder that drops a context takes its permit along. -/
def handle? (q : Semaphore) (i : Nat) (handling : Handling) : Option Semaphore :=
  match q.stanceOf i, handling with
  | .granted .hold, .close _ => some (q.put i .returning)
  | .granted .hold, .leave => some (q.put i (.finished .done))
  | .granted .lease, .release => some (q.put i .returning)
  | .granted .lease, .leave => some (q.put i .returning)
  | _, _ => none

def use? (q : Semaphore) (i : Nat) : Option Semaphore :=
  match q.stanceOf i with
  | .granted _ => some q
  | _ => none

def rouse? (q : Semaphore) (i : Nat) : Option Semaphore :=
  match q.stanceOf i with
  | .asleep r => some (q.put i (.asking r))
  | _ => none

/-- What comes of a move, if it is possible. -/
def move (q : Semaphore) : Move σ → Option Semaphore
  | .begin i operation => q.begin? i operation
  | .run i chosen => q.step? i chosen
  | .handle i handling => q.handle? i handling
  | .use i _ => q.use? i
  | .rouse i => q.rouse? i
  | .tick nanos => some { q with clock := q.clock + nanos }
  | .arm _ => none

def run (q : Semaphore) : List (Move σ) → Option Semaphore
  | [] => some q
  | mv :: moves => (q.move mv).bind fun q => q.run moves

theorem put_self {q : Semaphore} {i : Nat} {stance : Stance}
    (h : q.callers[i]? = some stance) : q.put i stance = q := by
  obtain ⟨hlt, he⟩ := List.getElem?_eq_some_iff.1 h
  unfold put
  rw [if_pos hlt, ← he, List.set_getElem_self]

end Semaphore

/-! ## Callers that open and give back -/

/-- What an opener may want, but to call a hook. -/
def Purpose.isPlain : Purpose → Bool
  | .hold | .lease => true
  | .call .. => false

/-- What a return of a context may be for, but for a reply or because of a panic. -/
def Aim.isPlain : Aim → Bool
  | .close | .leave => true
  | .reply _ | .unwind _ => false

/-- The stance of a caller in its place. -/
def Place.stance : Place σ → Stance
  | .asking r => .asking r
  | .asleep r => .asleep r
  | .building r | .grown r _ => .granted r.purpose
  | .holding .direct _ => .granted .hold
  | .holding (.leased _) _ => .granted .lease
  | .returning .. => .returning
  | .stopping _ => .stopping
  | .evicting _ aim _ => .finished (aim.verdict (.ok ()))
  | .draining _ active _ _ => .finished (stopOutcome active)
  | .finished o => .finished o
  | _ => .elsewhere

/-- How many steps of the caller from here on are hidden from the semaphore. -/
def Place.hidden : Place σ → Nat
  | .building _ => 2
  | .grown .. | .evicting .. => 1
  | .draining _ _ _ rest => rest.length + 1
  | _ => 0

/-- The caller opens a context of the pool or gives one back, or shuts the pool down. -/
def Place.Ordinary (m : ManagerId) : Place σ → Prop
  | .asking r | .asleep r | .building r => r.manager = m ∧ r.purpose.isPlain = true
  | .grown r c => r.manager = m ∧ r.purpose.isPlain = true ∧ c.owner = some m
  | .holding .direct c => c.owner = some m
  | .holding (.leased k) c => k = m ∧ c.owner = some m
  | .returning k aim c => k = m ∧ aim.isPlain = true ∧ c.owner = some m
  | .evicting k aim _ => k = m ∧ aim.isPlain = true
  | .stopping k | .draining k .. => k = m
  | .finished _ => True
  | _ => False

theorem Place.isAsleep_stance {m : ManagerId} {p : Place σ} (hp : p.Ordinary m) :
    p.stance.isAsleep = p.sleepsOn m := by
  cases p with
  | asleep r => exact (beq_iff_eq.2 hp.1).symm
  | holding tenure c => cases tenure <;> rfl
  | _ => rfl

theorem Place.stance_awakened {m : ManagerId} {p : Place σ} (hp : p.Ordinary m) :
    (State.awakened m p).stance = p.stance.awakened := by
  cases p with
  | asleep r => simp only [State.awakened, if_pos hp.1]; rfl
  | holding tenure c => cases tenure <;> rfl
  | _ => rfl

theorem Place.ordinary_awakened {m : ManagerId} {p : Place σ} (hp : p.Ordinary m) :
    (State.awakened m p).Ordinary m := by
  cases p with
  | asleep r => simp only [State.awakened, if_pos hp.1]; exact hp
  | _ => exact hp

theorem Place.ordinary_served {m : ManagerId} {r : Request} {c : Context σ} (hr : r.manager = m)
    (hplain : r.purpose.isPlain = true) (hc : c.owner = some m) : (r.served c).Ordinary m := by
  unfold Request.served
  split
  · exact hc
  · exact ⟨hr, hc⟩
  · rename_i hpurpose
    rw [hpurpose] at hplain
    cases hplain

theorem Place.stance_served {r : Request} (c : Context σ) (hplain : r.purpose.isPlain = true) :
    (r.served c).stance = .granted r.purpose := by
  unfold Request.served
  split
  · rename_i hpurpose
    rw [hpurpose]
    rfl
  · rename_i hpurpose
    rw [hpurpose]
    rfl
  · rename_i hpurpose
    rw [hpurpose] at hplain
    cases hplain

theorem Aim.verdict_ok {aim : Aim} (h : aim.isPlain = true) : aim.verdict (.ok ()) = .done := by
  cases aim <;> first | rfl | cases h

namespace State

variable {invoke : Invoke σ} {s t : State σ} {i j chosen : Nat} {m : ManagerId}
  {M M' : Manager σ} {q : Semaphore} {p : Place σ} {r : Request} {c : Context σ}

/-- The factory loads a script whenever it is asked. -/
def Loads (s : State σ) (factory : Nat) : Prop :=
  ∃ maker, s.factories[factory]? = some maker ∧
    ∀ n, ∃ name script lines, maker.product n = .loaded name script lines

/-- **A factory that always loads makes a context**, if the sink is not armed. -/
theorem Loads.build {factory : Nat} (h : s.Loads factory) (harmed : s.armed = none) :
    ∃ t c, s.build factory = (t, .context c) ∧ t.managers = s.managers ∧ t.places = s.places ∧
      t.clock = s.clock ∧ t.armed = none ∧ t.Loads factory := by
  obtain ⟨maker, hmaker, hproduct⟩ := h
  obtain ⟨name, script, lines, hloaded⟩ := hproduct maker.asked
  have hlt := (List.getElem?_eq_some_iff.1 hmaker).1
  unfold State.build
  rw [hmaker]
  dsimp only
  rw [hloaded]
  dsimp only
  rw [report_unarmed (by exact harmed)]
  refine ⟨_, _, rfl, rfl, rfl, rfl, harmed, { maker with asked := maker.asked + 1 }, ?_, hproduct⟩
  simp [State.record, State.print, hlt]

/-- The semaphore of a pool that callers only open, give back to and shut down, while its factory
always loads and the sink is not armed. -/
structure Counts (s : State σ) (m : ManagerId) (M : Manager σ) (q : Semaphore) : Prop where
  there : s.manager? m = some M
  pool : M.stock.isPool = true
  sound : M.poisoned = false
  permits : q.permits = M.stock.maxActive
  taken : q.taken = M.stock.active
  closed : q.closed = M.closed
  clock : q.clock = s.clock
  callers : q.callers = s.places.map Place.stance
  ordinary : ∀ p ∈ s.places, p.Ordinary m
  unarmed : s.armed = none
  loads : s.Loads M.factory

namespace Counts

/-! ## What keeps the count -/

theorem caller? (h : Counts s m M q) (i : Nat) :
    q.callers[i]? = (s.places[i]?).map Place.stance := by
  rw [h.callers, List.getElem?_map]

theorem put (h : Counts s m M q) (i : Nat) (hp : p.Ordinary m) :
    Counts (s.put i p) m M (q.put i p.stance) := by
  have hl : q.callers.length = s.places.length := by rw [h.callers, List.length_map]
  unfold State.put Semaphore.put
  rw [hl]
  split
  · refine { h with callers := ?_, ordinary := fun q hq => ?_ }
    · simp only [h.callers, List.map_set]
    · rcases List.mem_or_eq_of_mem_set hq with hq | rfl
      · exact h.ordinary q hq
      · exact hp
  · refine { h with callers := ?_, ordinary := fun q hq => ?_ }
    · simp only [h.callers, List.map_append, List.map_cons, List.map_nil]
    · rcases List.mem_append.1 hq with hq | hq
      · exact h.ordinary q hq
      · exact List.mem_singleton.1 hq ▸ hp

theorem record (h : Counts s m M q) (e : Event) : Counts (s.record e) m M q :=
  { h with }

theorem replace {N : Manager σ} (h : Counts s m M q) (hconfig : N.stock.config? = M.stock.config?)
    (hp : N.poisoned = false) (hf : N.factory = M.factory) {taken : Nat} {closed : Bool}
    (htaken : taken = N.stock.active) (hclosed : closed = N.closed) :
    Counts (s.setManager m (some N)) m N { q with taken := taken, closed := closed } :=
  { h with
    there := manager?_setManager h.there (some N)
    pool := (Stock.isPool_congr hconfig).trans h.pool
    sound := hp
    permits := h.permits.trans (Stock.maxActive_congr hconfig).symm
    taken := htaken
    closed := hclosed
    loads := hf ▸ h.loads }

theorem sleepers (h : Counts s m M q) : s.sleepers m = q.sleepers := by
  simp only [State.sleepers, Semaphore.sleepers, h.callers, List.length_map]
  refine List.filter_congr fun i _ => ?_
  rw [List.getElem?_map]
  cases hi : s.places[i]? with
  | none => rfl
  | some p => exact (Place.isAsleep_stance (h.ordinary p (List.mem_of_getElem? hi))).symm

theorem wakeOne (h : Counts s m M q) (chosen : Nat) :
    Counts (s.wakeOne m chosen) m M (q.wakeOne chosen) := by
  unfold State.wakeOne Semaphore.wakeOne
  rw [h.sleepers]
  dsimp only
  generalize ite (q.sleepers.contains chosen = true) (some chosen) q.sleepers.head? = woken
  cases woken with
  | none => exact h
  | some i =>
    refine { h with callers := ?_, ordinary := fun p hp => ?_ }
    · apply List.ext_getElem?
      intro j
      simp only [h.callers, List.getElem?_modify, List.getElem?_map]
      cases hj : s.places[j]? with
      | none => rfl
      | some p =>
        have hp := h.ordinary p (List.mem_of_getElem? hj)
        by_cases hij : i = j <;> simp [hij, Place.stance_awakened hp]
    · obtain ⟨j, hj⟩ := List.mem_iff_getElem?.1 hp
      rw [List.getElem?_modify] at hj
      obtain ⟨p', hp', rfl⟩ := Option.map_eq_some_iff.1 hj
      have hord := h.ordinary p' (List.mem_of_getElem? hp')
      split
      · exact Place.ordinary_awakened hord
      · exact hord

theorem wakeAll (h : Counts s m M q) : Counts (s.wakeAll m) m M q.wakeAll := by
  refine { h with callers := ?_, ordinary := fun p hp => ?_ }
  · simp only [Semaphore.wakeAll, State.wakeAll, h.callers, List.map_map]
    exact List.map_congr_left fun p hp => (Place.stance_awakened (h.ordinary p hp)).symm
  · obtain ⟨p', hp', rfl⟩ := List.mem_map.1 hp
    exact Place.ordinary_awakened (h.ordinary p' hp')

theorem build (h : Counts s m M q) :
    ∃ t c, s.build M.factory = (t, .context c) ∧ Counts t m M q := by
  obtain ⟨t, c, hbuild, hmanagers, hplaces, hclock, harmed, hloads⟩ := h.loads.build h.unarmed
  refine ⟨t, c, hbuild, { h with
    there := by rw [manager?_of_managers_eq hmanagers, h.there]
    clock := h.clock.trans hclock.symm
    callers := by rw [hplaces, h.callers]
    ordinary := hplaces ▸ h.ordinary
    unarmed := harmed
    loads := hloads }⟩

/-! ## Steps that the semaphore takes as well -/

theorem await (h : Counts s m M q) (i : Nat) (hr : r.manager = m)
    (hplain : r.purpose.isPlain = true) : Counts (s.await i r) m M (q.await i r) := by
  unfold State.await Semaphore.await
  rw [h.clock]
  cases r.deadline with
  | none => exact h.put i (p := .asleep r) ⟨hr, hplain⟩
  | some deadline =>
    dsimp only
    split
    · exact h.put i (p := .finished _) trivial
    · exact h.put i (p := .asleep r) ⟨hr, hplain⟩

/-- **A pool has something for an opener exactly if not all permits are taken.** -/
theorem ask (h : Counts s m M q) (i : Nat) (hr : r.manager = m)
    (hplain : r.purpose.isPlain = true) {n : Tally} (hb : Bounded M n)
    (hown : ∀ c ∈ M.stock.contexts, c.owner = some m) :
    ∃ M', Counts (s.ask i r M) m M' (q.ask i r) := by
  subst hr
  have htaken := h.taken
  have hpermits := h.permits
  have hroom := hb.room
  unfold State.ask Semaphore.ask
  rw [if_neg (by rw [h.sound]; decide)]
  cases hc : M.closed with
  | true =>
    rw [if_pos rfl, if_pos (h.closed.trans hc)]
    exact ⟨M, h.put i (p := .finished _) trivial⟩
  | false =>
    have hopen : q.closed = false := h.closed.trans hc
    rw [if_neg (by decide), if_neg (by rw [hopen]; decide)]
    cases ho : M.stock.offer with
    | lent c rest =>
      have hcontexts := Stock.contexts_of_offer_lent ho
      have hlength := congrArg List.length hcontexts
      rw [List.length_cons] at hlength
      have hactive := Stock.active_of_offer_lent ho hroom
      have hs := h.replace (N := M.withStock rest) (Stock.config?_of_offer_lent ho) h.sound rfl
        ((congrArg (· + 1) htaken).trans hactive.symm) h.closed
      have hserved := Place.ordinary_served (r := r) rfl hplain
        (hown c (hcontexts ▸ List.mem_cons_self))
      rw [if_pos (by omega), ← Place.stance_served c hplain]
      dsimp only
      rw [report_unarmed hs.unarmed]
      exact ⟨_, (hs.record _).put i hserved⟩
    | reserved rest =>
      obtain ⟨-, hless, -, hactive⟩ := Stock.of_offer_reserved ho
      have hs := h.replace (N := M.withStock rest) (Stock.config?_of_offer_reserved ho) h.sound
        rfl ((congrArg (· + 1) htaken).trans hactive.symm) h.closed
      rw [if_pos (by omega)]
      exact ⟨_, hs.put i (p := .building r) ⟨rfl, hplain⟩⟩
    | full =>
      have hfull := (Stock.of_offer_full ho).2 h.pool
      rw [if_neg (by omega)]
      exact ⟨M, h.await i rfl hplain⟩

/-- **A return frees a permit and wakes one sleeper**, whether the pool keeps the context or not. -/
theorem takeBack (h : Counts s m M q) (i chosen : Nat) {aim : Aim} (haim : aim.isPlain = true) :
    ∃ M', Counts (s.takeBack i m aim c M chosen) m M' (q.giveBack i chosen) := by
  have hvacate := h.replace (N := M.withStock M.stock.vacate) (Stock.config?_vacate M.stock)
    h.sound rfl ((congrArg (· - 1) h.taken).trans (Stock.active_vacate M.stock).symm) h.closed
  have hpool : M.stock.vacate.isPool = true :=
    (Stock.isPool_congr (Stock.config?_vacate M.stock)).trans h.pool
  unfold State.takeBack Semaphore.giveBack
  rw [← Aim.verdict_ok haim]
  dsimp only
  cases M.keeps with
  | true =>
    rw [if_pos rfl, reportFor_unarmed hvacate.unarmed]
    dsimp only
    rw [conclude_ok]
    have hput := (hvacate.record (keptEvent m M.stock.vacate c)).replace
      (N := M.withStock (M.stock.vacate.put c)) (Stock.config?_put c M.stock.vacate) h.sound rfl
      (hvacate.taken.trans (Stock.active_put c M.stock.vacate).symm) h.closed
    exact ⟨_, (hput.wakeOne chosen).put i (p := .finished _) trivial⟩
  | false =>
    rw [if_neg (by decide), if_pos hpool]
    exact ⟨_, (hvacate.wakeOne chosen).put i (p := .evicting m aim c) ⟨rfl, haim⟩⟩

theorem giveBack (h : Counts s m M q) (i chosen : Nat) {aim : Aim} (haim : aim.isPlain = true)
    (hc : c.owner = some m) :
    ∃ M', Counts (s.giveBack i m aim c M chosen) m M' (q.giveBack i chosen) := by
  unfold State.giveBack
  rw [if_neg (not_not_intro hc), if_neg (by rw [h.sound]; decide)]
  exact h.takeBack i chosen haim

theorem stop (h : Counts s m M q) (i : Nat) : ∃ M', Counts (s.stop i m M) m M' (q.stop i) := by
  have hshut := h.replace (N := M.shut) (Stock.config?_emptied M.stock) h.sound rfl
    (h.taken.trans (Stock.active_emptied M.stock).symm) (show true = M.shut.closed from rfl)
  unfold State.stop Semaphore.stop
  rw [if_neg (by rw [h.sound]; decide), congrArg stopOutcome h.taken]
  exact ⟨_, hshut.wakeAll.put i (p := .draining m M.stock.active _ _) rfl⟩

/-! ## Steps that are hidden from the semaphore -/

/-- A caller that stays in its stance leaves the semaphore as it is. -/
theorem put_hidden (h : Counts s m M q) {i : Nat} (hi : q.callers[i]? = some p.stance)
    (hp : p.Ordinary m) : Counts (s.put i p) m M q := by
  have hput := h.put i hp
  rwa [Semaphore.put_self hi] at hput

theorem discard (h : Counts s m M q) (unwinding : Bool) (c : Context σ) :
    ∃ t, s.discard unwinding m M c = (t, false) ∧ Counts t m (M.countDestroyed 1) q := by
  have hs := h.replace (N := M.countDestroyed 1) rfl h.sound rfl h.taken h.closed
  rw [discard_unarmed h.unarmed, discarded, h.pool, cond_true]
  exact ⟨_, rfl, (hs.record _).record _⟩

theorem grow (h : Counts s m M q) (hi : q.callers[i]? = some (.granted r.purpose))
    (hr : r.manager = m) (hplain : r.purpose.isPlain = true) : Counts (s.grow i r M) m M q := by
  obtain ⟨t, c, hbuild, ht⟩ := h.build
  unfold State.grow
  rw [hbuild]
  exact ht.put_hidden (p := .grown r { c with owner := some r.manager }) hi
    ⟨hr, hplain, congrArg some hr⟩

theorem countGrown (h : Counts s m M q) (hi : q.callers[i]? = some (.granted r.purpose))
    (hr : r.manager = m) (hplain : r.purpose.isPlain = true) (hc : c.owner = some m) :
    Counts (s.countGrown i r c) m M.countCreated q := by
  subst hr
  have hs := h.replace (N := M.countCreated) rfl h.sound rfl h.taken h.closed
  unfold State.countGrown
  rw [onManager_eq h.there, report_unarmed hs.unarmed]
  exact (hs.record _).put_hidden (p := r.served c) (by rwa [Place.stance_served c hplain])
    (Place.ordinary_served rfl hplain hc)

theorem evict (h : Counts s m M q) {aim : Aim} (hi : q.callers[i]? = some (.finished .done))
    (haim : aim.isPlain = true) : Counts (s.evict i m aim c M) m (M.countDestroyed 1) q := by
  obtain ⟨t, hdiscard, ht⟩ := h.discard aim.isUnwinding c
  unfold State.evict
  rw [hdiscard]
  dsimp only
  rw [conclude_ok, Aim.verdict_ok haim]
  exact ht.put_hidden (p := .finished .done) hi trivial

theorem drain (h : Counts s m M q) {active : Nat} {first : Bool} {contexts : List (Context σ)}
    (hi : q.callers[i]? = some (.finished (stopOutcome active))) :
    ∃ M', Counts (s.drain i m active first M contexts) m M' q := by
  cases contexts with
  | cons c rest =>
    obtain ⟨t, hdiscard, ht⟩ := h.discard false c
    rw [State.drain, hdiscard]
    exact ⟨_, ht.put_hidden (p := .draining m active first rest) hi rfl⟩
  | nil =>
    rw [State.drain]
    split
    · exact ⟨M, h.put_hidden (p := .finished (stopOutcome active)) hi trivial⟩
    · rw [report_unarmed h.unarmed]
      exact ⟨M, (h.record _).put_hidden (p := .finished (stopOutcome active)) hi trivial⟩

end Counts
end State
end Lending
end HookPool
