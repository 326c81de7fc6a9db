/-
# Steps of callers

What each caller does next from its place, one step at a time.  What a manager does while it is
locked is one step, and so is each update of a counter.  A step that frees a context or a slot wakes
one sleeper, which `chosen` names; it may be any of them.

A caller whose event makes the sink panic comes to grief: what it has in its hands is destroyed
without being counted, a lease goes back to its manager, and a manager that it has locked is
poisoned.

`Move` says all that may happen, `move` what comes of it; a run is any list of moves.
-/
import HookPool.Lending.State

namespace HookPool
namespace Lending

namespace State

variable {σ : Type}

/-- The caller comes to grief at an event. -/
def crash (s : State σ) (caller : Nat) : State σ :=
  s.finish caller (.panicked sinkPayload)

/-! ## Opening -/

/-- The opener has its context. -/
def serve (s : State σ) (caller : Nat) (r : Request) (c : Context σ) : State σ :=
  s.put caller (match r.purpose with
    | .hold => .holding .direct c
    | .lease => .holding (.leased r.manager) c
    | .call hook arguments => .running r.manager hook arguments c)

/-- The event of lending a context that was at hand, when the rest is `stock`. -/
def lentEvent (m : ManagerId) (stock : Stock σ) (c : Context σ) : Event :=
  if stock.isPool then .lentIdle m c.id stock.active else .lentOnly m c.id

/-- An opener that finds nothing goes to sleep, or gives up if its time is over. -/
def await (s : State σ) (caller : Nat) (r : Request) : State σ :=
  match r.deadline with
  | none => s.put caller (.asleep r)
  | some deadline =>
    if deadline.time ≤ s.clock then s.finish caller (.failed (.timeout deadline.after))
    else s.put caller (.asleep r)

/-- An opener has the lock. -/
def ask (s : State σ) (caller : Nat) (r : Request) (manager : Manager σ) : State σ :=
  if manager.poisoned then s.finish caller (.failed .lockFailed)
  else if manager.closed then s.finish caller (.failed .managerClosed)
  else
    match manager.stock.offer with
    | .lent c stock =>
      let s := s.setManager r.manager (some (manager.withStock stock))
      match s.report (lentEvent r.manager stock c) with
      | (s, true) => ((s.wreck c).onManager r.manager .poison).crash caller
      | (s, false) => s.serve caller r c
    | .reserved stock =>
      (s.setManager r.manager (some (manager.withStock stock))).put caller (.building r)
    | .full => s.await caller r

/-- An opener that has reserved a slot builds a context. -/
def grow (s : State σ) (caller : Nat) (r : Request) (manager : Manager σ) : State σ :=
  match s.build manager.factory with
  | (s, .context c) => s.put caller (.grown r { c with owner := some r.manager })
  | (s, .panicked payload) => s.finish caller (.panicked payload)
  | (s, .failed e) =>
    match s.report (.buildFailed r.manager e) with
    | (s, true) => s.crash caller
    | (s, false) => s.put caller (.abandoned r e)

/-- The context that an opener has built is counted. -/
def countGrown (s : State σ) (caller : Nat) (r : Request) (c : Context σ) : State σ :=
  match (s.onManager r.manager .countCreated).report (.grew r.manager c.id) with
  | (s, true) => (s.wreck c).crash caller
  | (s, false) => s.serve caller r c

/-- A slot in which nothing was built is free again. -/
def abandon (s : State σ) (caller : Nat) (r : Request) (e : Error) (chosen : Nat) : State σ :=
  let s := s.onManager r.manager fun manager => manager.withStock manager.stock.vacate
  (s.wakeOne r.manager chosen).finish caller (.failed e)

/-! ## Calling -/

/-- A caller calls its hook and turns to give the context back. -/
def callHook (invoke : Invoke σ) (s : State σ) (caller : Nat) (m : ManagerId) (hook : String)
    (arguments : List HookArg) (c : Context σ) : State σ :=
  let invocation := invoke c.script hook arguments
  let c := { c with script := invocation.script }
  let s := s.print invocation.printed
  match invocation.reply? with
  | some reply => s.put caller (.returning m (.reply reply) c)
  | none =>
    match s.report (.hookUndefined hook c.name) with
    | (s, true) => s.put caller (.returning m (.unwind sinkPayload) c)
    | (s, false) => s.put caller (.returning m (.reply (.ok .notImplemented)) c)

/-! ## Giving back -/

/-- The return of a context is over. -/
def conclude (s : State σ) (caller : Nat) (aim : Aim) (result : Except Error Unit) : State σ :=
  match aim, result with
  | .close, .ok () => s.finish caller .done
  | .close, .error e => s.finish caller (.failed e)
  | .reply (.ok reply), .ok () => s.finish caller (.replied reply)
  | .reply (.error e), .ok () => s.finish caller (.failed e)
  | .reply _, .error e => s.finish caller (.failed e)
  | .leave, .ok () => s.finish caller .done
  | .leave, .error e =>
    match s.report (.leaseNotReturned e) with
    | (s, true) => s.crash caller
    | (s, false) => s.finish caller .done
  | .unwind payload, .ok () => s.finish caller (.panicked payload)
  | .unwind payload, .error e =>
    (s.record (.leaseNotReturned e)).finish caller (.panicked payload)

/-- A lease that ends reports that its context was refused; then the context ends. -/
def disown (s : State σ) (caller : Nat) (aim : Aim) (c : Context σ) : State σ :=
  match s.reportFor aim.isUnwinding (.leaseNotReturned (.foreignContext c.id)) with
  | (s, true) => (s.wreck c).crash caller
  | (s, false) =>
    match s.destroyFor aim.isUnwinding c with
    | (s, true) => s.crash caller
    | (s, false) => s.conclude caller aim (.ok ())

/-- A context that a manager did not lend stays with its holder; a lease that ends has no use for
it. -/
def refuse (s : State σ) (caller : Nat) (m : ManagerId) (aim : Aim) (c : Context σ) : State σ :=
  match s.reportFor aim.isUnwinding (.notLentHere c.id m) with
  | (s, true) => (s.wreck c).crash caller
  | (s, false) =>
    match aim with
    | .close | .reply _ => s.put caller (.refused c)
    | .leave | .unwind _ => s.disown caller aim c

/-- The event of keeping a context that came back, when the others are `stock`. -/
def keptEvent (m : ManagerId) (stock : Stock σ) (c : Context σ) : Event :=
  if stock.isPool then .recycled m c.id stock.active else .gotBack m c.id

/-- A holder has the lock of the manager that has lent its context.  A pool wakes an opener even if
it does not keep the context, as there is a slot. -/
def takeBack (s : State σ) (caller : Nat) (m : ManagerId) (aim : Aim) (c : Context σ)
    (manager : Manager σ) (chosen : Nat) : State σ :=
  let stock := manager.stock.vacate
  let s := s.setManager m (some (manager.withStock stock))
  if manager.keeps then
    match s.reportFor aim.isUnwinding (keptEvent m stock c) with
    | (s, true) => ((s.wreck c).onManager m .poison).crash caller
    | (s, false) =>
      let s := s.setManager m (some (manager.withStock (stock.put c)))
      (s.wakeOne m chosen).conclude caller aim (.ok ())
  else if stock.isPool then
    (s.wakeOne m chosen).put caller (.evicting m aim c)
  else s.put caller (.evicting m aim c)

/-- A holder gives its context to a manager. -/
def giveBack (s : State σ) (caller : Nat) (m : ManagerId) (aim : Aim) (c : Context σ)
    (manager : Manager σ) (chosen : Nat) : State σ :=
  if c.owner ≠ some m then s.refuse caller m aim c
  else if manager.poisoned then
    match s.destroyFor aim.isUnwinding c with
    | (s, true) => s.crash caller
    | (s, false) => s.conclude caller aim (.error .lockFailed)
  else s.takeBack caller m aim c manager chosen

/-- A context that a manager does not keep is counted as destroyed, and ends; only a pool reports
that it has counted it. -/
def discard (s : State σ) (unwinding : Bool) (m : ManagerId) (manager : Manager σ)
    (c : Context σ) : State σ × Bool :=
  let s := s.setManager m (some (manager.countDestroyed 1))
  if manager.stock.isPool then
    match s.reportFor unwinding (.evicted m c.id) with
    | (s, true) => (s.wreck c, true)
    | (s, false) => s.destroyFor unwinding c
  else s.destroyFor unwinding c

def evict (s : State σ) (caller : Nat) (m : ManagerId) (aim : Aim) (c : Context σ)
    (manager : Manager σ) : State σ :=
  match s.discard aim.isUnwinding m manager c with
  | (s, true) => s.crash caller
  | (s, false) => s.conclude caller aim (.ok ())

/-! ## Shutting down -/

/-- A caller that shuts a manager down has the lock. -/
def stop (s : State σ) (caller : Nat) (m : ManagerId) (manager : Manager σ) : State σ :=
  if manager.poisoned then s.finish caller (.failed .lockFailed)
  else
    ((s.setManager m (some manager.shut)).wakeAll m).put caller
      (.draining m manager.stock.active (!manager.closed) manager.stock.contexts)

/-- What the end of a shutdown reports, if anything: that it came too early, or that it went well,
which a manager of one context says only once. -/
def stopEvent? (m : ManagerId) (stock : Stock σ) (active : Nat) (first : Bool) : Option Event :=
  if 0 < active then
    some (if stock.isPool then .shutDownEarly m active else .onlyShutDownEarly m)
  else if stock.isPool || first then some (.shutDown m)
  else none

/-- A caller that shuts a manager down destroys the contexts that were at hand, and ends. -/
def drain (s : State σ) (caller : Nat) (m : ManagerId) (active : Nat) (first : Bool)
    (manager : Manager σ) : List (Context σ) → State σ
  | c :: rest =>
    match s.discard false m manager c with
    | (s, true) => (s.wreckAll rest).crash caller
    | (s, false) => s.put caller (.draining m active first rest)
  | [] =>
    let outcome := if 0 < active then .failed (.contextsOutstanding active) else .done
    match stopEvent? m manager.stock active first with
    | none => s.finish caller outcome
    | some event =>
      match s.report event with
      | (s, true) => s.crash caller
      | (s, false) => s.finish caller outcome

/-- What the end of a manager that still has contexts lent reports. -/
def dropEvent? (m : ManagerId) (manager : Manager σ) : Option Event :=
  let active := manager.stock.active
  if manager.closed || active = 0 then none
  else some (if manager.stock.isPool then .droppedEarly m active else .onlyDroppedEarly m)

/-- The end of a manager: a pool destroys its contexts before it reports, a manager of one context
afterwards. -/
def dropManager (s : State σ) (caller : Nat) (m : ManagerId) (manager : Manager σ) : State σ :=
  let contexts := manager.stock.contexts
  let s := s.setManager m none
  let (s, crashed) :=
    if manager.stock.isPool then
      match s.destroyAll contexts, dropEvent? m manager with
      | (s, false), some event => s.report event
      | (s, crashed), _ => (s, crashed)
    else
      match dropEvent? m manager with
      | none => s.destroyAll contexts
      | some event =>
        match s.report event with
        | (s, true) => (s.wreckAll contexts, true)
        | (s, false) => s.destroyAll contexts
  if crashed then s.crash caller else s.finish caller .done

/-! ## Making managers and contexts -/

/-- The most bytes that a list of contexts may take. -/
def maxListBytes : Nat := Nat.pow 2 63 - 1

/-- The bytes that a context takes in a list. -/
def contextBytes : Nat := 80

/-- The list of contexts at hand that a pool sets room aside for can be addressed. -/
def fits (config : PoolConfig) : Bool :=
  max config.startCount config.maxIdle * contextBytes ≤ maxListBytes

/-- What is said of a list that cannot be addressed. -/
def capacityPayload : String := "capacity overflow"

/-- A caller begins to make a manager. -/
def establish (s : State σ) (caller : Nat) (factory : Nat) (plan : Plan) : State σ :=
  match plan with
  | .single => s.takeManagerId.put caller (.warming s.nextManager plan factory [])
  | .pool config =>
    match config.fault? with
    | some fault => s.finish caller (.failed (.invalidConfig fault))
    | none =>
      if fits config then s.takeManagerId.put caller (.warming s.nextManager plan factory [])
      else s.takeManagerId.finish caller (.panicked capacityPayload)

/-- The event of a manager that is made, and what it starts with. -/
def madeEvent (m : ManagerId) (plan : Plan) (name : String) (built : List (Context σ)) : Event :=
  match plan, built with
  | .pool config, _ => .warmedUp m built.length name config.maxActive config.maxIdle
  | .single, c :: _ => .holds m c.id name
  | .single, [] => .warmedUp m 0 name 1 1

/-- A manager that is made, with its first contexts. -/
def firstManager (plan : Plan) (factory : Nat) (built : List (Context σ)) : Manager σ :=
  match plan with
  | .pool config =>
    { stock := .pool config 0 built, factory := factory, created := config.startCount }
  | .single => { stock := .single built.head? false, factory := factory, created := 1 }

/-- One step in the making of a manager. -/
def warm (s : State σ) (caller : Nat) (m : ManagerId) (plan : Plan) (factory : Nat)
    (built : List (Context σ)) : State σ :=
  if built.length < plan.startCount then
    match s.build factory with
    | (s, .context c) =>
      s.put caller (.warming m plan factory (built ++ [{ c with owner := some m }]))
    | (s, .panicked payload) => (s.wreckAll built).finish caller (.panicked payload)
    | (s, .failed e) =>
      match s.destroyAll built with
      | (s, true) => s.crash caller
      | (s, false) => s.finish caller (.failed e)
  else
    let name := ((s.factories[factory]?).map Factory.name).getD ""
    match s.report (madeEvent m plan name built) with
    | (s, true) => (s.wreckAll built).crash caller
    | (s, false) =>
      (s.setManager m (some (firstManager plan factory built))).finish caller (.made m)

/-- A caller has a context made outside every manager. -/
def create (s : State σ) (caller : Nat) (factory : Nat) : State σ :=
  match s.build factory with
  | (s, .context c) => s.put caller (.holding .direct c)
  | (s, .panicked payload) => s.finish caller (.panicked payload)
  | (s, .failed e) => s.finish caller (.failed e)

/-! ## One step of a caller -/

/-- The step of a caller that needs a manager. -/
def withManager (s : State σ) (m : ManagerId) (f : Manager σ → State σ) : Option (State σ) :=
  (s.manager? m).map f

/-- The next step of a caller; none if it has to wait for something else. -/
def step? (invoke : Invoke σ) (s : State σ) (caller chosen : Nat) : Option (State σ) :=
  match s.places[caller]? with
  | none => none
  | some place =>
    match place with
    | .asking r => s.withManager r.manager (s.ask caller r)
    | .building r => s.withManager r.manager (s.grow caller r)
    | .grown r c => s.withManager r.manager fun _ => s.countGrown caller r c
    | .abandoned r e => s.withManager r.manager fun _ => s.abandon caller r e chosen
    | .running m hook arguments c => some (callHook invoke s caller m hook arguments c)
    | .returning m aim c =>
      s.withManager m fun manager => s.giveBack caller m aim c manager chosen
    | .evicting m aim c => s.withManager m (s.evict caller m aim c)
    | .stopping m => s.withManager m (s.stop caller m)
    | .draining m active first rest =>
      s.withManager m fun manager => s.drain caller m active first manager rest
    | .warming m plan factory built => some (s.warm caller m plan factory built)
    | .creating factory => some (s.create caller factory)
    | .asleep _ | .holding _ _ | .refused _ | .finished _ => none

/-! ## What callers begin and what holders do -/

end State

/-- What a caller may begin to do. -/
inductive Operation where
  | acquire (manager : ManagerId) (purpose : Purpose) (timeout : Option Duration)
  | shutDown (manager : ManagerId)
  /-- Ends a manager that nobody uses any more. -/
  | dropManager (manager : ManagerId)
  | establish (factory : Nat) (plan : Plan)
  | create (factory : Nat)

/-- What a holder may do with its context. -/
inductive Handling where
  /-- Gives back a context that it holds without a lease, to whichever manager. -/
  | close (manager : ManagerId)
  /-- Ends a lease, and wants to know how that went. -/
  | release
  /-- Lets go: a lease is returned, any other context is destroyed. -/
  | leave
  /-- Lets go as it comes to grief. -/
  | unwind (payload : String)
  /-- Takes up again a context that was refused. -/
  | recover

/-- All that may happen. -/
inductive Move (σ : Type) where
  /-- A caller that does nothing, or a new one, begins to do something. -/
  | begin (caller : Nat) (operation : Operation)
  /-- A caller takes a step, and `chosen` is woken if the step wakes one sleeper. -/
  | run (caller chosen : Nat)
  | handle (caller : Nat) (handling : Handling)
  /-- The holder of a context has worked with its script. -/
  | use (caller : Nat) (script : σ)
  /-- A sleeper wakes up, at its time or without any cause. -/
  | rouse (caller : Nat)
  | tick (nanos : Nat)
  | arm (text : String)

namespace State

variable {σ : Type}

/-- The caller is new or has finished. -/
def isFree (s : State σ) (caller : Nat) : Bool :=
  match s.places[caller]? with
  | none => caller = s.places.length
  | some (.finished _) => true
  | some _ => false

/-- Some caller still needs the manager. -/
def inUse (s : State σ) (m : ManagerId) : Bool :=
  s.places.any (Place.uses m)

/-- A caller begins to do something. -/
def begin? (s : State σ) (caller : Nat) (operation : Operation) : Option (State σ) :=
  if s.isFree caller then
    match operation with
    | .acquire m purpose timeout =>
      s.withManager m fun _ => s.put caller (.asking ⟨m, purpose, s.deadline? timeout⟩)
    | .shutDown m => s.withManager m fun _ => s.put caller (.stopping m)
    | .dropManager m =>
      if s.inUse m then none else s.withManager m (s.dropManager caller m)
    | .establish factory plan =>
      if factory < s.factories.length then some (s.establish caller factory plan) else none
    | .create factory =>
      if factory < s.factories.length then some (s.put caller (.creating factory)) else none
  else none

/-- A holder lets go of a context that it holds without a lease. -/
def letGo (s : State σ) (caller : Nat) (c : Context σ) : State σ :=
  match s.destroy c with
  | (s, true) => s.crash caller
  | (s, false) => s.finish caller .done

/-- A holder does something with its context. -/
def handle? (s : State σ) (caller : Nat) (handling : Handling) : Option (State σ) :=
  match s.places[caller]?, handling with
  | some (.holding .direct c), .close m =>
    s.withManager m fun _ => s.put caller (.returning m .close c)
  | some (.holding .direct c), .leave => some (s.letGo caller c)
  | some (.holding .direct c), .unwind payload =>
    some ((s.wreck c).finish caller (.panicked payload))
  | some (.holding (.leased m) c), .release => some (s.put caller (.returning m .close c))
  | some (.holding (.leased m) c), .leave => some (s.put caller (.returning m .leave c))
  | some (.holding (.leased m) c), .unwind payload =>
    some (s.put caller (.returning m (.unwind payload) c))
  | some (.refused c), .recover => some (s.put caller (.holding .direct c))
  | _, _ => none

/-- The holder of a context leaves its script in another state. -/
def use? (s : State σ) (caller : Nat) (script : σ) : Option (State σ) :=
  match s.places[caller]? with
  | some (.holding tenure c) => some (s.put caller (.holding tenure { c with script }))
  | _ => none

/-- A sleeper wakes up and asks again. -/
def rouse? (s : State σ) (caller : Nat) : Option (State σ) :=
  match s.places[caller]? with
  | some (.asleep r) => some (s.put caller (.asking r))
  | _ => none

/-- What comes of a move, if it is possible. -/
def move (invoke : Invoke σ) (s : State σ) : Move σ → Option (State σ)
  | .begin caller operation => s.begin? caller operation
  | .run caller chosen => s.step? invoke caller chosen
  | .handle caller handling => s.handle? caller handling
  | .use caller script => s.use? caller script
  | .rouse caller => s.rouse? caller
  | .tick nanos => some { s with clock := s.clock + nanos }
  | .arm text => some { s with armed := some text }

/-- What comes of moves that follow each other. -/
def run (invoke : Invoke σ) (s : State σ) : List (Move σ) → Option (State σ)
  | [] => some s
  | m :: moves => (s.move invoke m).bind fun s => s.run invoke moves

end State
end Lending
end HookPool
