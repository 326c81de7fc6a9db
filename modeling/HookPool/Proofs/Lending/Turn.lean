/-
# What a turn of a caller can do

Every move but the passing of time and the arming of the sink is a turn of one caller.  `Turn` says
all that a turn can do: for the place that the caller was in, an `Upshot` with the place that it
comes to, the manager that is changed, the callers that are woken, and the contexts that are made
and that end.  There is one relation for each activity, and one constructor for each way in which
a step can go, with what it found.

| activity | places |
|---|---|
| `Beginning` | `finished` |
| `Opening` | `asking`, `building`, `grown`, `abandoned` |
| `GivingBack` | `running`, `returning`, `evicting` |
| `Stopping` | `stopping`, `draining` |
| `Making` | `warming`, `creating` |
| `Dealing` | `holding`, `refused` |

Main statement: a move that is possible is a turn, and its state follows from the upshot
(`move_turn`).  Nothing that is proved of all runs opens a step again.
-/
import HookPool.Proofs.Lending.Aside

namespace HookPool
namespace Lending

variable {σ : Type}

/-! ## Upshots -/

/-- What a turn does to the managers. -/
inductive Shift (σ : Type) where
  | keep
  /-- A number is taken for a manager that is to be made. -/
  | number
  | replace (m : ManagerId) (manager : Option (Manager σ))

/-- Who is woken in a turn. -/
inductive Wake where
  | nobody
  | one (m : ManagerId) (chosen : Nat)
  | all (m : ManagerId)

/-- What a turn of a caller comes to. -/
structure Upshot (σ : Type) where
  /-- Where the caller is then. -/
  place : Place σ
  shift : Shift σ := .keep
  wake : Wake := .nobody
  made : List (Context σ) := []
  /-- The contexts that come to their end. -/
  gone : List (Context σ) := []

/-- The sleepers of a manager among callers in their places. -/
def sleepersIn (m : ManagerId) (places : List (Place σ)) : List Nat :=
  (List.range places.length).filter fun i => (places[i]?).any (Place.sleepsOn m)

/-- The places after callers were woken. -/
def Wake.apply : Wake → List (Place σ) → List (Place σ)
  | .nobody, places => places
  | .one m chosen, places =>
    match if (sleepersIn m places).contains chosen then some chosen
      else (sleepersIn m places).head? with
    | some i => places.modify i (State.awakened m)
    | none => places
  | .all m, places => places.map (State.awakened m)

/-- The places with a caller in another one; a caller with the next number is a new one. -/
def putAt (places : List (Place σ)) (i : Nat) (place : Place σ) : List (Place σ) :=
  if i < places.length then places.set i place else places ++ [place]

/-- What a return tells the caller whose sink does not panic. -/
def Aim.verdict : Aim → Except Error Unit → Outcome
  | .close, .ok () => .done
  | .close, .error e => .failed e
  | .reply (.ok answer), .ok () => .replied answer
  | .reply (.error e), .ok () => .failed e
  | .reply _, .error e => .failed e
  | .leave, _ => .done
  | .unwind payload, _ => .panicked payload

/-- Where an opener is that has its context. -/
def Request.served (r : Request) (c : Context σ) : Place σ :=
  match r.purpose with
  | .hold => .holding .direct c
  | .lease => .holding (.leased r.manager) c
  | .call hook arguments => .running r.manager hook arguments c

/-- An opener that has its context holds it or calls a hook with it. -/
@[elab_as_elim]
theorem Request.served_induction {motive : Place σ → Prop} (r : Request) (c : Context σ)
    (holds : ∀ tenure, motive (.holding tenure c))
    (runs : ∀ hook arguments, motive (.running r.manager hook arguments c)) :
    motive (r.served c) := by
  unfold Request.served
  split
  · exact holds .direct
  · exact holds (.leased r.manager)
  · exact runs _ _

namespace State

/-- Where a caller is; one that has not begun anything is as good as one that has finished. -/
def placeOf (s : State σ) (i : Nat) : Place σ :=
  (s.places[i]?).getD (.finished .done)

/-- The managers after a turn. -/
def shifted (s : State σ) : Shift σ → List (Option (Manager σ))
  | .keep => s.managers
  | .number => s.managers ++ [none]
  | .replace m manager => s.managers.set (m.number - 1) manager

/-- The state follows from another one by an upshot of a caller's turn. -/
structure Follows (s t : State σ) (i : Nat) (u : Upshot σ) : Prop where
  managers : t.managers = s.shifted u.shift
  places : t.places = putAt (u.wake.apply s.places) i u.place
  clock : t.clock = s.clock
  contextsMade : t.contextsMade = s.contextsMade + u.made.length
  ended : t.ended = (u.gone.map Context.id).reverse ++ s.ended

/-! ## The activities -/

/-- What an opener can come to. -/
inductive Opening (s : State σ) (chosen : Nat) : Place σ → Upshot σ → Prop where
  | barred {r : Request} {M : Manager σ} (hm : s.manager? r.manager = some M)
    (hp : M.poisoned = true) :
    Opening s chosen (.asking r) { place := .finished (.failed .lockFailed) }
  | shutOut {r : Request} {M : Manager σ} (hm : s.manager? r.manager = some M)
    (hp : M.poisoned = false) (hc : M.closed = true) :
    Opening s chosen (.asking r) { place := .finished (.failed .managerClosed) }
  | lent {r : Request} {M : Manager σ} {c : Context σ} {rest : Stock σ}
    (hm : s.manager? r.manager = some M) (hp : M.poisoned = false) (hc : M.closed = false)
    (ho : M.stock.offer = .lent c rest) :
    Opening s chosen (.asking r)
      { place := r.served c, shift := .replace r.manager (some (M.withStock rest)) }
  | lentCrash {r : Request} {M : Manager σ} {c : Context σ} {rest : Stock σ}
    (hm : s.manager? r.manager = some M) (hp : M.poisoned = false) (hc : M.closed = false)
    (ho : M.stock.offer = .lent c rest) :
    Opening s chosen (.asking r)
      { place := .finished (.panicked sinkPayload)
        shift := .replace r.manager (some (M.withStock rest).poison)
        gone := [c] }
  | reserved {r : Request} {M : Manager σ} {rest : Stock σ}
    (hm : s.manager? r.manager = some M) (hp : M.poisoned = false) (hc : M.closed = false)
    (ho : M.stock.offer = .reserved rest) :
    Opening s chosen (.asking r)
      { place := .building r, shift := .replace r.manager (some (M.withStock rest)) }
  | fellAsleep {r : Request} {M : Manager σ} (hm : s.manager? r.manager = some M)
    (hp : M.poisoned = false) (hc : M.closed = false) (ho : M.stock.offer = .full)
    (hd : ∀ d, r.deadline = some d → s.clock < d.time) :
    Opening s chosen (.asking r) { place := .asleep r }
  | timedOut {r : Request} {M : Manager σ} {d : Deadline} (hm : s.manager? r.manager = some M)
    (hp : M.poisoned = false) (hc : M.closed = false) (ho : M.stock.offer = .full)
    (hd : r.deadline = some d) (ht : d.time ≤ s.clock) :
    Opening s chosen (.asking r) { place := .finished (.failed (.timeout d.after)) }
  | built {r : Request} {M : Manager σ} {t : State σ} {c : Context σ}
    (hm : s.manager? r.manager = some M) (hb : s.build M.factory = (t, .context c))
    (hi : c.id = s.nextContext) :
    Opening s chosen (.building r)
      { place := .grown r { c with owner := some r.manager }
        made := [{ c with owner := some r.manager }] }
  | buildFailed {r : Request} {M : Manager σ} {t : State σ} {e : Error}
    (hm : s.manager? r.manager = some M) (hb : s.build M.factory = (t, .failed e)) :
    Opening s chosen (.building r) { place := .abandoned r e }
  | buildFailedCrash {r : Request} {M : Manager σ} {t : State σ} {e : Error}
    (hm : s.manager? r.manager = some M) (hb : s.build M.factory = (t, .failed e)) :
    Opening s chosen (.building r) { place := .finished (.panicked sinkPayload) }
  | buildCrash {r : Request} {M : Manager σ} {t : State σ} {payload : String}
    {cs : List (Context σ)} (hm : s.manager? r.manager = some M)
    (hb : s.build M.factory = (t, .panicked payload)) (hs : Stillborn s cs) :
    Opening s chosen (.building r)
      { place := .finished (.panicked payload), made := cs, gone := cs }
  | counted {r : Request} {M : Manager σ} {c : Context σ} (hm : s.manager? r.manager = some M) :
    Opening s chosen (.grown r c)
      { place := r.served c, shift := .replace r.manager (some M.countCreated) }
  | countedCrash {r : Request} {M : Manager σ} {c : Context σ}
    (hm : s.manager? r.manager = some M) :
    Opening s chosen (.grown r c)
      { place := .finished (.panicked sinkPayload)
        shift := .replace r.manager (some M.countCreated)
        gone := [c] }
  | gaveUp {r : Request} {M : Manager σ} {e : Error} (hm : s.manager? r.manager = some M) :
    Opening s chosen (.abandoned r e)
      { place := .finished (.failed e)
        shift := .replace r.manager (some (M.withStock M.stock.vacate))
        wake := .one r.manager chosen }

/-- What a caller can come to that runs a hook or gives a context back. -/
inductive GivingBack (invoke : Invoke σ) (s : State σ) (chosen : Nat) :
    Place σ → Upshot σ → Prop where
  | called {m : ManagerId} {hook : String} {arguments : List HookArg} {c : Context σ}
    {reply : Except Error HookReply}
    (hr : (invoke c.script hook arguments).reply? = some reply) :
    GivingBack invoke s chosen (.running m hook arguments c)
      { place := .returning m (.reply reply)
          { c with script := (invoke c.script hook arguments).script } }
  | undefined {m : ManagerId} {hook : String} {arguments : List HookArg} {c : Context σ}
    (hr : (invoke c.script hook arguments).reply? = none) :
    GivingBack invoke s chosen (.running m hook arguments c)
      { place := .returning m (.reply (.ok .notImplemented))
          { c with script := (invoke c.script hook arguments).script } }
  | undefinedCrash {m : ManagerId} {hook : String} {arguments : List HookArg} {c : Context σ}
    (hr : (invoke c.script hook arguments).reply? = none) :
    GivingBack invoke s chosen (.running m hook arguments c)
      { place := .returning m (.unwind sinkPayload)
          { c with script := (invoke c.script hook arguments).script } }
  | refused {m : ManagerId} {M : Manager σ} {aim : Aim} {c : Context σ}
    (hm : s.manager? m = some M) (ho : c.owner ≠ some m)
    (ha : aim = .close ∨ ∃ reply, aim = .reply reply) :
    GivingBack invoke s chosen (.returning m aim c) { place := .refused c }
  | refusedEnd {m : ManagerId} {M : Manager σ} {aim : Aim} {c : Context σ} {o : Outcome}
    (hm : s.manager? m = some M) (ho : c.owner ≠ some m)
    (h : o = .panicked sinkPayload ∨ (aim = .leave ∨ ∃ payload, aim = .unwind payload) ∧
      o = aim.verdict (.error (.foreignContext c.id))) :
    GivingBack invoke s chosen (.returning m aim c) { place := .finished o, gone := [c] }
  | barred {m : ManagerId} {M : Manager σ} {aim : Aim} {c : Context σ} {o : Outcome}
    (hm : s.manager? m = some M) (ho : c.owner = some m) (hp : M.poisoned = true)
    (h : o = .panicked sinkPayload ∨ o = aim.verdict (.error .lockFailed)) :
    GivingBack invoke s chosen (.returning m aim c) { place := .finished o, gone := [c] }
  | kept {m : ManagerId} {M : Manager σ} {aim : Aim} {c : Context σ}
    (hm : s.manager? m = some M) (ho : c.owner = some m) (hp : M.poisoned = false)
    (hk : M.keeps = true) :
    GivingBack invoke s chosen (.returning m aim c)
      { place := .finished (aim.verdict (.ok ()))
        shift := .replace m (some (M.withStock (M.stock.vacate.put c)))
        wake := .one m chosen }
  | keptCrash {m : ManagerId} {M : Manager σ} {aim : Aim} {c : Context σ}
    (hm : s.manager? m = some M) (ho : c.owner = some m) (hp : M.poisoned = false)
    (hk : M.keeps = true) :
    GivingBack invoke s chosen (.returning m aim c)
      { place := .finished (.panicked sinkPayload)
        shift := .replace m (some (M.withStock M.stock.vacate).poison)
        gone := [c] }
  | turnedAway {m : ManagerId} {M : Manager σ} {aim : Aim} {c : Context σ}
    (hm : s.manager? m = some M) (ho : c.owner = some m) (hp : M.poisoned = false)
    (hk : M.keeps = false) :
    GivingBack invoke s chosen (.returning m aim c)
      { place := .evicting m aim c
        shift := .replace m (some (M.withStock M.stock.vacate))
        wake := if M.stock.isPool then .one m chosen else .nobody }
  | evicted {m : ManagerId} {M : Manager σ} {aim : Aim} {c : Context σ} {o : Outcome}
    (hm : s.manager? m = some M) (h : o = .panicked sinkPayload ∨ o = aim.verdict (.ok ())) :
    GivingBack invoke s chosen (.evicting m aim c)
      { place := .finished o
        shift := .replace m (some (M.countDestroyed 1))
        gone := [c] }

/-- What a caller can come to that shuts a manager down. -/
inductive Stopping (s : State σ) : Place σ → Upshot σ → Prop where
  | barred {m : ManagerId} {M : Manager σ} (hm : s.manager? m = some M)
    (hp : M.poisoned = true) :
    Stopping s (.stopping m) { place := .finished (.failed .lockFailed) }
  | stopped {m : ManagerId} {M : Manager σ} (hm : s.manager? m = some M)
    (hp : M.poisoned = false) :
    Stopping s (.stopping m)
      { place := .draining m M.stock.active (!M.closed) M.stock.contexts
        shift := .replace m (some M.shut)
        wake := .all m }
  | drained {m : ManagerId} {M : Manager σ} {active : Nat} {first : Bool} {c : Context σ}
    {rest : List (Context σ)} (hm : s.manager? m = some M) :
    Stopping s (.draining m active first (c :: rest))
      { place := .draining m active first rest
        shift := .replace m (some (M.countDestroyed 1))
        gone := [c] }
  | drainCrash {m : ManagerId} {M : Manager σ} {active : Nat} {first : Bool} {c : Context σ}
    {rest : List (Context σ)} (hm : s.manager? m = some M) :
    Stopping s (.draining m active first (c :: rest))
      { place := .finished (.panicked sinkPayload)
        shift := .replace m (some (M.countDestroyed 1))
        gone := c :: rest }
  | ended {m : ManagerId} {M : Manager σ} {active : Nat} {first : Bool} {o : Outcome}
    (hm : s.manager? m = some M)
    (h : o = .panicked sinkPayload ∨
      o = if 0 < active then .failed (.contextsOutstanding active) else .done) :
    Stopping s (.draining m active first []) { place := .finished o }

/-- What a caller can come to that makes a manager, or a context outside every manager. -/
inductive Making (s : State σ) : Place σ → Upshot σ → Prop where
  | warmed {m : ManagerId} {plan : Plan} {factory : Nat} {built : List (Context σ)}
    {t : State σ} {c : Context σ} (hl : built.length < plan.startCount)
    (hb : s.build factory = (t, .context c)) (hi : c.id = s.nextContext) :
    Making s (.warming m plan factory built)
      { place := .warming m plan factory (built ++ [{ c with owner := some m }])
        made := [{ c with owner := some m }] }
  | warmFailed {m : ManagerId} {plan : Plan} {factory : Nat} {built : List (Context σ)}
    {t : State σ} {e : Error} {o : Outcome} (hl : built.length < plan.startCount)
    (hb : s.build factory = (t, .failed e)) (h : o = .panicked sinkPayload ∨ o = .failed e) :
    Making s (.warming m plan factory built) { place := .finished o, gone := built }
  | warmCrash {m : ManagerId} {plan : Plan} {factory : Nat} {built cs : List (Context σ)}
    {t : State σ} {payload : String} (hl : built.length < plan.startCount)
    (hb : s.build factory = (t, .panicked payload)) (hs : Stillborn s cs) :
    Making s (.warming m plan factory built)
      { place := .finished (.panicked payload), made := cs, gone := cs ++ built }
  | madeCrash {m : ManagerId} {plan : Plan} {factory : Nat} {built : List (Context σ)}
    (hl : plan.startCount ≤ built.length) :
    Making s (.warming m plan factory built)
      { place := .finished (.panicked sinkPayload), gone := built }
  | made {m : ManagerId} {plan : Plan} {factory : Nat} {built : List (Context σ)}
    (hl : plan.startCount ≤ built.length) :
    Making s (.warming m plan factory built)
      { place := .finished (.made m)
        shift := .replace m (some (firstManager plan factory built)) }
  | created {factory : Nat} {t : State σ} {c : Context σ}
    (hb : s.build factory = (t, .context c)) (hi : c.id = s.nextContext) (ho : c.owner = none) :
    Making s (.creating factory) { place := .holding .direct c, made := [c] }
  | createFailed {factory : Nat} {t : State σ} {e : Error}
    (hb : s.build factory = (t, .failed e)) :
    Making s (.creating factory) { place := .finished (.failed e) }
  | createCrash {factory : Nat} {t : State σ} {payload : String} {cs : List (Context σ)}
    (hb : s.build factory = (t, .panicked payload)) (hs : Stillborn s cs) :
    Making s (.creating factory)
      { place := .finished (.panicked payload), made := cs, gone := cs }

/-- What a caller can come to that begins to do something. -/
inductive Beginning (s : State σ) : Operation → Place σ → Upshot σ → Prop where
  | opens {m : ManagerId} {M : Manager σ} {purpose : Purpose} {timeout : Option Duration}
    {o : Outcome} (hm : s.manager? m = some M) :
    Beginning s (.acquire m purpose timeout) (.finished o)
      { place := .asking ⟨m, purpose, s.deadline? timeout⟩ }
  | stops {m : ManagerId} {M : Manager σ} {o : Outcome} (hm : s.manager? m = some M) :
    Beginning s (.shutDown m) (.finished o) { place := .stopping m }
  | drops {m : ManagerId} {M : Manager σ} {o o' : Outcome} (hm : s.manager? m = some M)
    (hu : s.inUse m = false) (h : o' = .panicked sinkPayload ∨ o' = .done) :
    Beginning s (.dropManager m) (.finished o)
      { place := .finished o', shift := .replace m none, gone := M.stock.contexts }
  | establishes {factory : Nat} {plan : Plan} {o : Outcome}
    (hv : ∀ config, plan = .pool config → config.Valid) :
    Beginning s (.establish factory plan) (.finished o)
      { place := .warming s.nextManager plan factory [], shift := .number }
  | misconfigured {factory : Nat} {config : PoolConfig} {fault : ConfigFault} {o : Outcome}
    (hf : config.fault? = some fault) :
    Beginning s (.establish factory (.pool config)) (.finished o)
      { place := .finished (.failed (.invalidConfig fault)) }
  | tooLarge {factory : Nat} {config : PoolConfig} {o : Outcome} (hf : fits config = false) :
    Beginning s (.establish factory (.pool config)) (.finished o)
      { place := .finished (.panicked capacityPayload), shift := .number }
  | creates {factory : Nat} {o : Outcome} :
    Beginning s (.create factory) (.finished o) { place := .creating factory }

/-- What a holder can come to that does something with its context. -/
inductive Dealing (s : State σ) : Handling → Place σ → Upshot σ → Prop where
  | closes {m : ManagerId} {M : Manager σ} {c : Context σ} (hm : s.manager? m = some M) :
    Dealing s (.close m) (.holding .direct c) { place := .returning m .close c }
  | letsGo {c : Context σ} {o : Outcome} (h : o = .panicked sinkPayload ∨ o = .done) :
    Dealing s .leave (.holding .direct c) { place := .finished o, gone := [c] }
  | unwinds {c : Context σ} {payload : String} :
    Dealing s (.unwind payload) (.holding .direct c)
      { place := .finished (.panicked payload), gone := [c] }
  | releases {m : ManagerId} {c : Context σ} :
    Dealing s .release (.holding (.leased m) c) { place := .returning m .close c }
  | leaves {m : ManagerId} {c : Context σ} :
    Dealing s .leave (.holding (.leased m) c) { place := .returning m .leave c }
  | unwindsLease {m : ManagerId} {c : Context σ} {payload : String} :
    Dealing s (.unwind payload) (.holding (.leased m) c)
      { place := .returning m (.unwind payload) c }
  | recovers {c : Context σ} :
    Dealing s .recover (.refused c) { place := .holding .direct c }

/-- What a move can come to that is a turn of the caller `i` in a place. -/
inductive Turn (invoke : Invoke σ) (s : State σ) (i : Nat) :
    Move σ → Place σ → Upshot σ → Prop where
  | beginning {operation : Operation} {p : Place σ} {u : Upshot σ}
    (h : Beginning s operation p u) : Turn invoke s i (.begin i operation) p u
  | opening {chosen : Nat} {p : Place σ} {u : Upshot σ} (h : Opening s chosen p u) :
    Turn invoke s i (.run i chosen) p u
  | givingBack {chosen : Nat} {p : Place σ} {u : Upshot σ} (h : GivingBack invoke s chosen p u) :
    Turn invoke s i (.run i chosen) p u
  | stopping {chosen : Nat} {p : Place σ} {u : Upshot σ} (h : Stopping s p u) :
    Turn invoke s i (.run i chosen) p u
  | making {chosen : Nat} {p : Place σ} {u : Upshot σ} (h : Making s p u) :
    Turn invoke s i (.run i chosen) p u
  | dealing {handling : Handling} {p : Place σ} {u : Upshot σ} (h : Dealing s handling p u) :
    Turn invoke s i (.handle i handling) p u
  | works {tenure : Tenure} {c : Context σ} {script : σ} :
    Turn invoke s i (.use i script) (.holding tenure c)
      { place := .holding tenure { c with script } }
  | rousing {r : Request} :
    Turn invoke s i (.rouse i) (.asleep r) { place := .asking r }

/-! ## What the place of a caller tells of its turn -/

namespace Turn

variable {invoke : Invoke σ} {s : State σ} {i : Nat} {mv : Move σ} {u : Upshot σ} {m : ManagerId}
  {r : Request} {aim : Aim} {c : Context σ} {o : Outcome}

/-- Whoever can take a step takes it in its turn. -/
theorem runs {p : Place σ} (h : Turn invoke s i mv p u) (hp : p.isReady = true) :
    ∃ chosen, mv = .run i chosen := by
  cases h with
  | opening h | givingBack h | stopping h | making h => exact ⟨_, rfl⟩
  | beginning h | dealing h => cases h <;> cases hp
  | works | rousing => cases hp

theorem of_finished (h : Turn invoke s i mv (.finished o) u) :
    ∃ operation, mv = .begin i operation ∧ Beginning s operation (.finished o) u := by
  cases h with
  | beginning h => exact ⟨_, rfl, h⟩
  | opening h | givingBack h | stopping h | making h | dealing h => cases h

theorem of_asking (h : Turn invoke s i mv (.asking r) u) :
    ∃ chosen, mv = .run i chosen ∧ Opening s chosen (.asking r) u := by
  cases h with
  | opening h => exact ⟨_, rfl, h⟩
  | beginning h | givingBack h | stopping h | making h | dealing h => cases h

theorem of_asleep (h : Turn invoke s i mv (.asleep r) u) :
    mv = .rouse i ∧ u = { place := .asking r } := by
  cases h with
  | rousing => exact ⟨rfl, rfl⟩
  | beginning h | opening h | givingBack h | stopping h | making h | dealing h => cases h

theorem of_returning (h : Turn invoke s i mv (.returning m aim c) u) :
    ∃ chosen, mv = .run i chosen ∧ GivingBack invoke s chosen (.returning m aim c) u := by
  cases h with
  | givingBack h => exact ⟨_, rfl, h⟩
  | beginning h | opening h | stopping h | making h | dealing h => cases h

theorem of_evicting (h : Turn invoke s i mv (.evicting m aim c) u) :
    ∃ chosen, mv = .run i chosen ∧ GivingBack invoke s chosen (.evicting m aim c) u := by
  cases h with
  | givingBack h => exact ⟨_, rfl, h⟩
  | beginning h | opening h | stopping h | making h | dealing h => cases h

theorem of_stopping (h : Turn invoke s i mv (.stopping m) u) :
    ∃ chosen, mv = .run i chosen ∧ Stopping s (.stopping m) u := by
  cases h with
  | stopping h => exact ⟨_, rfl, h⟩
  | beginning h | opening h | givingBack h | making h | dealing h => cases h

theorem of_draining {active : Nat} {first : Bool} {rest : List (Context σ)}
    (h : Turn invoke s i mv (.draining m active first rest) u) :
    ∃ chosen, mv = .run i chosen ∧ Stopping s (.draining m active first rest) u := by
  cases h with
  | stopping h => exact ⟨_, rfl, h⟩
  | beginning h | opening h | givingBack h | making h | dealing h => cases h

end Turn
end State
end Lending
end HookPool
