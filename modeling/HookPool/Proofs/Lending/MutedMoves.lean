/-
# What is left without hooks goes its own way

A move leads from what is left of a state to what is left of the state that it leads to, with hooks
that all do the same (`mute`) in the place of those that are there (`move_muted`).  So whatever hooks
do, they decide nothing but what was taken out.

One thing has to be ruled out, as a sink that panics tells events apart: that it panics on the way
(`Spares`).  Each step that reports something either panics there, and the sink is armed no more, or
goes on as if it had only recorded the event (`Tells`); what is left of a state has no armed sink.
-/
import HookPool.Proofs.Lending.Muted

namespace HookPool
namespace Lending

variable {σ : Type}

namespace State

variable {s t : State σ} {m : ManagerId} {M : Manager σ} {i chosen : Nat}

/-! ## Reports -/

/-- What is left of a report is a report at which no sink panics. -/
theorem report_muted (s : State σ) (e : Event) {e' : Event} (he : e.muted? = some e') :
    s.muted.report e' = ((s.record e).muted, false) := by
  rw [report_unarmed rfl, record_muted s he]

theorem reportFor_muted (s : State σ) (unwinding : Bool) (e : Event) {e' : Event}
    (he : e.muted? = some e') :
    s.muted.reportFor unwinding e' = ((s.record e).muted, false) := by
  rw [reportFor_unarmed rfl, record_muted s he]

theorem discarded_muted (s : State σ) (m : ManagerId) (M : Manager σ) (c : Context σ) :
    s.muted.discarded m M.muted c.muted = (s.discarded m M c).muted := by
  have hs : s.muted.setManager m (some (M.muted.countDestroyed 1)) =
      (s.setManager m (some (M.countDestroyed 1))).muted :=
    setManager_muted s m (some (M.countDestroyed 1))
  unfold discarded
  rw [hs, show M.muted.stock.isPool = M.stock.isPool from M.stock.isPool_muted, ← wreck_muted]
  cases M.stock.isPool <;> rfl

/-! ## Opening -/

/-- What is left of what comes of building a context. -/
def Built.muted : Built σ → Built Unit
  | .context c => .context c.muted
  | .failed e => .failed e.muted
  | .panicked payload => .panicked payload

/-- The state in which a factory has loaded one script more. -/
def loaded (s : State σ) (factory : Nat) (maker : Factory σ) (lines : List ByteArray) : State σ :=
  { s with
    factories := s.factories.set factory { maker with asked := maker.asked + 1 }
    contextsMade := s.contextsMade + 1
    printed := lines.reverse ++ s.printed }

theorem build_loaded {factory : Nat} {maker : Factory σ} {name : String} {script : σ}
    {lines : List ByteArray} (hf : s.factories[factory]? = some maker)
    (hp : maker.product maker.asked = .loaded name script lines) :
    s.build factory =
      match (s.loaded factory maker lines).report (.constructed s.nextContext name) with
      | (t, true) => (t.wreck ⟨s.nextContext, none, name, script⟩, .panicked sinkPayload)
      | (t, false) => (t, .context ⟨s.nextContext, none, name, script⟩) := by
  simp only [build, hf, hp]
  rfl

theorem loaded_muted (s : State σ) (factory : Nat) (maker : Factory σ) (lines : List ByteArray) :
    s.muted.loaded factory maker.muted [] = (s.loaded factory maker lines).muted := by
  simp [loaded, muted, Factory.muted, List.map_set]

/-- **A factory makes the same, whatever the scripts are that it loads**, or the sink panics. -/
theorem build_tells (s : State σ) (factory : Nat) :
    s.muted.build factory = ((s.build factory).1.muted, (s.build factory).2.muted) ∧
        (s.build factory).1.armed = s.armed ∨
      s.armed ≠ none ∧ ∃ u, s.build factory = (u, .panicked sinkPayload) ∧ u.armed = none := by
  cases hf : s.factories[factory]? with
  | none => exact .inl (by simp [build, factory?_muted, hf, Built.muted])
  | some maker =>
    have hf' : s.muted.factories[factory]? = some maker.muted := by rw [factory?_muted, hf]; rfl
    cases hp : maker.product maker.asked with
    | panics payload =>
      refine .inl ⟨?_, by simp [build, hf, hp]⟩
      simp [build, hf, hp, Factory.muted, Product.muted, Built.muted, muted, List.map_set]
    | failed e lines =>
      refine .inl ⟨?_, by simp [build, hf, hp]⟩
      simp [build, hf, hp, Factory.muted, Product.muted, Built.muted, muted, List.map_set, print]
    | loaded name script lines =>
      have hp' : maker.muted.product maker.muted.asked = .loaded "" () [] := by
        simp [Factory.muted, hp, Product.muted]
      rw [build_loaded hf hp, build_loaded hf' hp', loaded_muted s factory maker lines,
        nextContext_muted, report_muted _ (.constructed s.nextContext name) rfl]
      obtain hr | ⟨ha, u, hr, hu⟩ := report_tells (s.loaded factory maker lines)
        (.constructed s.nextContext name)
      · rw [hr]
        exact .inl ⟨rfl, rfl⟩
      · rw [hr]
        exact .inr ⟨ha, _, rfl, hu⟩

theorem serve_muted (s : State σ) (i : Nat) (r : Request) (c : Context σ) :
    s.muted.serve i r.muted c.muted = (s.serve i r c).muted := by
  have hplace := Request.served_muted r c
  exact (congrArg (s.muted.put i) hplace).trans (put_muted s i (r.served c))

theorem await_muted (s : State σ) (i : Nat) (r : Request) :
    s.muted.await i r.muted = (s.await i r).muted := by
  unfold await
  rw [show r.muted.deadline = r.deadline from rfl, show s.muted.clock = s.clock from rfl]
  cases r.deadline with
  | none => exact put_muted s i (.asleep r)
  | some deadline =>
    dsimp only
    split
    · exact finish_muted s i (.failed (.timeout deadline.after))
    · exact put_muted s i (.asleep r)

theorem lentEvent_muted? (m : ManagerId) (stock : Stock σ) (c : Context σ) :
    (lentEvent m stock c).muted? = some (lentEvent m stock.muted c.muted) := by
  unfold lentEvent
  rw [Stock.isPool_muted, Stock.active_muted]
  split <;> rfl

/-- **An opener comes to the same, whatever the scripts are.** -/
theorem ask_muted {r : Request} (h : Spares s (s.ask i r M)) :
    s.muted.ask i r.muted M.muted = (s.ask i r M).muted := by
  unfold ask at h ⊢
  rw [show M.muted.poisoned = M.poisoned from rfl, show M.muted.closed = M.closed from rfl,
    show M.muted.stock.offer = M.stock.offer.muted from M.stock.offer_muted]
  split
  · exact finish_muted s i (.failed .lockFailed)
  split
  · exact finish_muted s i (.failed .managerClosed)
  rw [if_neg ‹_›, if_neg ‹_›] at h
  cases ho : M.stock.offer with
  | lent c rest =>
    rw [ho] at h
    have hset : s.muted.setManager r.muted.manager (some (M.muted.withStock rest.muted)) =
        (s.setManager r.manager (some (M.withStock rest))).muted :=
      setManager_muted s r.manager (some (M.withStock rest))
    dsimp only [Offer.muted] at h ⊢
    rw [hset, Request.manager_muted, report_muted _ _ (lentEvent_muted? r.manager rest c)]
    obtain hr | ⟨ha, u, hr, hu⟩ := report_tells (s.setManager r.manager (some (M.withStock rest)))
      (lentEvent r.manager rest c)
    · rw [hr]
      exact serve_muted _ i r c
    · rw [hr] at h
      exact absurd (h (by simpa using hu)) ha
  | reserved rest =>
    have hset : s.muted.setManager r.muted.manager (some (M.muted.withStock rest.muted)) =
        (s.setManager r.manager (some (M.withStock rest))).muted :=
      setManager_muted s r.manager (some (M.withStock rest))
    dsimp only [Offer.muted]
    rw [hset]
    exact put_muted _ i (.building r)
  | full => exact await_muted s i r

theorem grow_muted {r : Request} (h : Spares s (s.grow i r M)) :
    s.muted.grow i r.muted M.muted = (s.grow i r M).muted := by
  unfold grow at h ⊢
  rw [show M.muted.factory = M.factory from rfl]
  obtain ⟨hb, harmed⟩ | ⟨ha, u, hb, hu⟩ := build_tells s M.factory
  · rw [hb]
    cases hbuild : s.build M.factory with
    | mk t b =>
      rw [hbuild] at h harmed
      cases b with
      | context c => exact put_muted t i (.grown r { c with owner := some r.manager })
      | panicked payload => exact finish_muted t i (.panicked payload)
      | failed e =>
        dsimp only [Built.muted, Request.manager_muted] at h ⊢
        rw [report_muted t (.buildFailed r.manager e) rfl]
        obtain hr | ⟨ha, u, hr, hu⟩ := report_tells t (.buildFailed r.manager e)
        · rw [hr]
          exact put_muted _ i (.abandoned r e)
        · rw [hr] at h
          rw [harmed] at ha
          exact absurd (h (by simpa using hu)) ha
  · rw [hb] at h
    exact absurd (h (by simpa using hu)) ha

theorem countGrown_muted {r : Request} {c : Context σ} (h : Spares s (s.countGrown i r c)) :
    s.muted.countGrown i r.muted c.muted = (s.countGrown i r c).muted := by
  unfold countGrown at h ⊢
  have hon : s.muted.onManager r.muted.manager .countCreated =
      (s.onManager r.manager .countCreated).muted := onManager_muted s r.manager fun _ => rfl
  rw [hon, Request.manager_muted, Context.id_muted, report_muted _ (.grew r.manager c.id) rfl]
  obtain hr | ⟨ha, u, hr, hu⟩ := report_tells (s.onManager r.manager .countCreated)
    (.grew r.manager c.id)
  · rw [hr]
    exact serve_muted _ i r c
  · rw [hr] at h
    rw [armed_onManager] at ha
    exact absurd (h (by simpa using hu)) ha

theorem abandon_muted (s : State σ) (i : Nat) (r : Request) (e : Error) (chosen : Nat) :
    s.muted.abandon i r.muted e.muted chosen = (s.abandon i r e chosen).muted := by
  have hon : s.muted.onManager r.muted.manager (fun M => M.withStock M.stock.vacate) =
      (s.onManager r.manager fun M => M.withStock M.stock.vacate).muted := by
    refine onManager_muted s r.manager fun M => ?_
    simp only [Manager.withStock, Manager.muted, Stock.vacate_muted]
  unfold abandon
  dsimp only
  rw [hon, show r.muted.manager = r.manager from rfl, wakeOne_muted]
  exact finish_muted _ i (.failed e)

/-! ## Calling and giving back -/

/-- **Whatever a hook does, its caller turns to give the context back**, unless the sink panics at a
hook that is not defined. -/
theorem callHook_muted (hooks : Hooks σ) {hook : String} {arguments : List HookArg}
    {c : Context σ} (h : Spares s (callHook hooks.invoke s i m hook arguments c)) :
    callHook mute s.muted i m "" [] c.muted =
      (callHook hooks.invoke s i m hook arguments c).muted := by
  have hplace : ∀ (t : State σ) (reply : Except Error HookReply),
      (Aim.reply reply).muted = .reply (.error .ofHook) →
        t.muted.put i (.returning m (.reply (.error .ofHook)) c.muted) =
          (t.put i (.returning m (.reply reply)
            { c with script := (hooks.invoke c.script hook arguments).script })).muted := by
    intro t reply ha
    rw [← put_muted, Place.muted, ha]
    rfl
  unfold callHook at h ⊢
  dsimp only [mute] at h ⊢
  cases hreply : (hooks.invoke c.script hook arguments).reply? with
  | some reply =>
    refine hplace (s.print _) reply ?_
    cases reply with
    | ok reply => rfl
    | error e =>
      obtain ⟨fault, rfl⟩ := hooks.named _ _ _ e hreply
      rfl
  | none =>
    rw [hreply] at h
    dsimp only at h ⊢
    obtain hr | ⟨ha, u, hr, hu⟩ :=
      report_tells (s.print (hooks.invoke c.script hook arguments).printed)
        (.hookUndefined hook c.name)
    · rw [hr]
      exact hplace ((s.print _).record (.hookUndefined hook c.name)) (.ok .notImplemented) rfl
    · rw [hr] at h
      exact absurd (h (by simpa using hu)) ha

theorem conclude_muted {aim : Aim} {result : Except Error Unit}
    (h : Spares s (s.conclude i aim result)) :
    s.muted.conclude i aim.muted (result.mapError Error.muted) =
      (s.conclude i aim result).muted := by
  cases aim with
  | close =>
    cases result with
    | ok => exact finish_muted s i .done
    | error e => exact finish_muted s i (.failed e)
  | reply reply =>
    cases reply with
    | ok reply =>
      cases result with
      | ok => exact finish_muted s i (.replied reply)
      | error e => exact finish_muted s i (.failed e)
    | error reply =>
      cases result with
      | ok => exact finish_muted s i (.failed reply)
      | error e => exact finish_muted s i (.failed e)
  | leave =>
    cases result with
    | ok => exact finish_muted s i .done
    | error e =>
      rw [show (Except.error e : Except Error Unit).mapError Error.muted = .error e.muted from rfl]
      unfold conclude at h ⊢
      dsimp only [Aim.muted] at h ⊢
      rw [report_muted s (.leaseNotReturned e) rfl]
      obtain hr | ⟨ha, u, hr, hu⟩ := report_tells s (.leaseNotReturned e)
      · rw [hr]
        exact finish_muted _ i .done
      · rw [hr] at h
        exact absurd (h (by simpa using hu)) ha
  | unwind payload =>
    cases result with
    | ok => exact finish_muted s i (.panicked payload)
    | error e => exact finish_muted (s.record (.leaseNotReturned e)) i (.panicked payload)

theorem disown_muted {aim : Aim} {c : Context σ} (h : Spares s (s.disown i aim c)) :
    s.muted.disown i aim.muted c.muted = (s.disown i aim c).muted := by
  have hreport : s.muted.reportFor aim.isUnwinding (.leaseNotReturned (.foreignContext c.id)) =
      ((s.record (.leaseNotReturned (.foreignContext c.id))).muted, false) :=
    reportFor_muted s _ (.leaseNotReturned (.foreignContext c.id)) rfl
  unfold disown at h ⊢
  rw [Aim.isUnwinding_muted, Context.id_muted, hreport]
  obtain hr | ⟨ha, u, hr, hu⟩ :=
    reportFor_tells s aim.isUnwinding (.leaseNotReturned (.foreignContext c.id))
  · rw [hr] at h ⊢
    dsimp only at h ⊢
    rw [destroyFor_unarmed rfl, wreck_muted]
    obtain hd | ⟨ha, u, hd, hu⟩ := destroyFor_tells (s.record _) aim.isUnwinding c
    · rw [hd] at h ⊢
      exact conclude_muted (s := (s.record _).wreck c) h
    · rw [hd] at h
      exact absurd (h (by simpa using hu)) ha
  · rw [hr] at h
    exact absurd (h (by simpa using hu)) ha

theorem refuse_muted {aim : Aim} {c : Context σ} (h : Spares s (s.refuse i m aim c)) :
    s.muted.refuse i m aim.muted c.muted = (s.refuse i m aim c).muted := by
  unfold refuse at h ⊢
  rw [Aim.isUnwinding_muted, Context.id_muted, reportFor_muted s _ (.notLentHere c.id m) rfl]
  obtain hr | ⟨ha, u, hr, hu⟩ := reportFor_tells s aim.isUnwinding (.notLentHere c.id m)
  · rw [hr] at h ⊢
    cases aim with
    | close => exact put_muted _ i (.refused c)
    | reply reply => cases reply <;> exact put_muted _ i (.refused c)
    | leave => exact disown_muted h
    | unwind payload => exact disown_muted h
  · rw [hr] at h
    exact absurd (h (by simpa using hu)) ha

theorem keptEvent_muted? (m : ManagerId) (stock : Stock σ) (c : Context σ) :
    (keptEvent m stock c).muted? = some (keptEvent m stock.muted c.muted) := by
  unfold keptEvent
  rw [Stock.isPool_muted, Stock.active_muted]
  split <;> rfl

/-- **A context that comes back is kept or not, whatever its script is.** -/
theorem takeBack_muted {aim : Aim} {c : Context σ}
    (h : Spares s (s.takeBack i m aim c M chosen)) :
    s.muted.takeBack i m aim.muted c.muted M.muted chosen =
      (s.takeBack i m aim c M chosen).muted := by
  have hset : ∀ (t : State σ) (stock : Stock σ),
      t.muted.setManager m (some (M.muted.withStock stock.muted)) =
        (t.setManager m (some (M.withStock stock))).muted :=
    fun t stock => setManager_muted t m (some (M.withStock stock))
  unfold takeBack at h ⊢
  dsimp only at h ⊢
  rw [show M.muted.stock.vacate = M.stock.vacate.muted from M.stock.vacate_muted, hset,
    Manager.keeps_muted]
  split
  · rw [if_pos ‹_›] at h
    rw [Aim.isUnwinding_muted, reportFor_muted _ _ _ (keptEvent_muted? m M.stock.vacate c)]
    obtain hr | ⟨ha, u, hr, hu⟩ :=
      reportFor_tells (s.setManager m (some (M.withStock M.stock.vacate))) aim.isUnwinding
        (keptEvent m M.stock.vacate c)
    · rw [hr] at h ⊢
      dsimp only at h ⊢
      rw [Stock.put_muted, hset, wakeOne_muted]
      exact conclude_muted (h.of_armed (by simp))
    · rw [hr] at h
      exact absurd (h (by simpa using hu)) ha
  · rw [Stock.isPool_muted]
    split
    · rw [wakeOne_muted]
      exact put_muted _ i (.evicting m aim c)
    · exact put_muted _ i (.evicting m aim c)

theorem giveBack_muted {aim : Aim} {c : Context σ}
    (h : Spares s (s.giveBack i m aim c M chosen)) :
    s.muted.giveBack i m aim.muted c.muted M.muted chosen =
      (s.giveBack i m aim c M chosen).muted := by
  unfold giveBack at h ⊢
  rw [Context.owner_muted, show M.muted.poisoned = M.poisoned from rfl]
  split
  · rw [if_pos ‹_›] at h
    exact refuse_muted h
  rw [if_neg ‹_›] at h
  split
  · rw [if_pos ‹_›] at h
    rw [destroyFor_unarmed rfl, wreck_muted]
    obtain hr | ⟨ha, u, hr, hu⟩ := destroyFor_tells s aim.isUnwinding c
    · rw [hr] at h ⊢
      exact conclude_muted (s := s.wreck c) h
    · rw [hr] at h
      exact absurd (h (by simpa using hu)) ha
  · rw [if_neg ‹_›] at h
    exact takeBack_muted h

theorem discard_muted (s : State σ) (unwinding : Bool) (m : ManagerId) (M : Manager σ)
    (c : Context σ) :
    s.muted.discard unwinding m M.muted c.muted = ((s.discarded m M c).muted, false) := by
  rw [← discarded_muted]
  exact discard_unarmed rfl unwinding m M.muted c.muted

theorem evict_muted {aim : Aim} {c : Context σ} (h : Spares s (s.evict i m aim c M)) :
    s.muted.evict i m aim.muted c.muted M.muted = (s.evict i m aim c M).muted := by
  unfold evict at h ⊢
  rw [Aim.isUnwinding_muted, discard_muted]
  obtain hr | ⟨ha, u, hr, hu⟩ := discard_tells s aim.isUnwinding m M c
  · rw [hr] at h ⊢
    exact conclude_muted (h.of_armed (armed_discarded s m M c))
  · rw [hr] at h
    exact absurd (h (by simpa using hu)) ha

/-! ## Shutting down and dropping -/

theorem stop_muted (s : State σ) (i : Nat) (m : ManagerId) (M : Manager σ) :
    s.muted.stop i m M.muted = (s.stop i m M).muted := by
  unfold stop
  rw [show M.muted.poisoned = M.poisoned from rfl]
  split
  · exact finish_muted s i (.failed .lockFailed)
  · have hset : s.muted.setManager m (some M.shut.muted) =
        (s.setManager m (some M.shut)).muted := setManager_muted s m (some M.shut)
    rw [Manager.shut_muted, hset, wakeAll_muted,
      show M.muted.stock.active = M.stock.active from M.stock.active_muted,
      show M.muted.stock.contexts = M.stock.contexts.map Context.muted from
        M.stock.contexts_muted]
    exact put_muted _ i (.draining m M.stock.active (!M.closed) M.stock.contexts)

theorem stopEvent?_muted (m : ManagerId) (stock : Stock σ) (active : Nat) (first : Bool) :
    stopEvent? m stock.muted active first = stopEvent? m stock active first := by
  unfold stopEvent?
  rw [Stock.isPool_muted]

theorem stopEvent?_muted? {stock : Stock σ} {active : Nat} {first : Bool} {e : Event}
    (h : stopEvent? m stock active first = some e) : e.muted? = some e := by
  unfold stopEvent? at h
  split at h
  · obtain rfl := Option.some.inj h
    split <;> rfl
  · split at h
    · obtain rfl := Option.some.inj h
      rfl
    · cases h

theorem drain_muted {active : Nat} {first : Bool} {contexts : List (Context σ)}
    (h : Spares s (s.drain i m active first M contexts)) :
    s.muted.drain i m active first M.muted (contexts.map Context.muted) =
      (s.drain i m active first M contexts).muted := by
  cases contexts with
  | cons c rest =>
    rw [drain] at h
    rw [List.map_cons, drain, drain, discard_muted]
    obtain hr | ⟨ha, u, hr, hu⟩ := discard_tells s false m M c
    · rw [hr]
      exact put_muted _ i (.draining m active first rest)
    · rw [hr] at h
      exact absurd (h (by simpa using hu)) ha
  | nil =>
    rw [drain] at h
    rw [List.map_nil, drain, drain,
      show stopEvent? m M.muted.stock active first = stopEvent? m M.stock active first from
        stopEvent?_muted m M.stock active first]
    have hend : ∀ t : State σ,
        t.muted.finish i (if 0 < active then .failed (.contextsOutstanding active) else .done) =
          (t.finish i
            (if 0 < active then .failed (.contextsOutstanding active) else .done)).muted := by
      intro t
      rw [← finish_muted]
      split <;> rfl
    cases he : stopEvent? m M.stock active first with
    | none => exact hend s
    | some e =>
      rw [he] at h
      dsimp only at h ⊢
      rw [report_muted s e (stopEvent?_muted? he)]
      obtain hr | ⟨ha, u, hr, hu⟩ := report_tells s e
      · rw [hr]
        exact hend _
      · rw [hr] at h
        exact absurd (h (by simpa using hu)) ha

theorem dropEvent?_muted (m : ManagerId) (M : Manager σ) :
    dropEvent? m M.muted = dropEvent? m M := by
  unfold dropEvent?
  rw [show M.muted.stock.active = M.stock.active from M.stock.active_muted,
    show M.muted.stock.isPool = M.stock.isPool from M.stock.isPool_muted]
  rfl

theorem dropEvent?_muted? {e : Event} (h : dropEvent? m M = some e) : e.muted? = some e := by
  unfold dropEvent? at h
  dsimp only at h
  split at h
  · cases h
  · obtain rfl := Option.some.inj h
    split <;> rfl

theorem destroyAll_muted (s : State σ) (contexts : List (Context σ)) :
    s.muted.destroyAll (contexts.map Context.muted) = ((s.wreckAll contexts).muted, false) := by
  rw [destroyAll_unarmed rfl, wreckAll_muted]

/-- What is reported at the end of a manager, and whether the sink panics at it. -/
def ending (s : State σ) (m : ManagerId) (M : Manager σ) : State σ × Bool :=
  let s := s.setManager m none
  if M.stock.isPool then
    match s.destroyAll M.stock.contexts, dropEvent? m M with
    | (s, false), some event => s.report event
    | (s, crashed), _ => (s, crashed)
  else
    match dropEvent? m M with
    | none => s.destroyAll M.stock.contexts
    | some event =>
      match s.report event with
      | (s, true) => (s.wreckAll M.stock.contexts, true)
      | (s, false) => s.destroyAll M.stock.contexts

theorem dropManager_eq (s : State σ) (i : Nat) (m : ManagerId) (M : Manager σ) :
    s.dropManager i m M =
      if (s.ending m M).2 then (s.ending m M).1.crash i else (s.ending m M).1.finish i .done :=
  rfl

theorem ending_tells (s : State σ) (m : ManagerId) (M : Manager σ) :
    ∃ t, Tells s t (s.ending m M) ∧ s.muted.ending m M.muted = (t.muted, false) := by
  have hset : s.muted.setManager m none = (s.setManager m none).muted := setManager_muted s m none
  have harmed : (s.setManager m none).armed = s.armed := rfl
  unfold ending
  dsimp only
  rw [hset, dropEvent?_muted, show M.muted.stock.isPool = M.stock.isPool from M.stock.isPool_muted,
    show M.muted.stock.contexts = M.stock.contexts.map Context.muted from M.stock.contexts_muted]
  generalize s.setManager m none = t at harmed ⊢
  have hall := destroyAll_tells t M.stock.contexts
  cases M.stock.isPool with
  | true =>
    rw [if_pos rfl, if_pos rfl, destroyAll_muted]
    cases he : dropEvent? m M with
    | none =>
      refine ⟨t.wreckAll M.stock.contexts, ?_, rfl⟩
      rw [Tells, ← harmed]
      obtain hr | ⟨ha, u, hr, hu⟩ := hall
      · rw [hr]
        exact .inl rfl
      · rw [hr]
        exact .inr ⟨ha, u, rfl, hu⟩
    | some e =>
      refine ⟨(t.wreckAll M.stock.contexts).record e, ?_, report_muted _ e (dropEvent?_muted? he)⟩
      rw [Tells, ← harmed]
      obtain hr | ⟨ha, u, hr, hu⟩ := hall
      · rw [hr]
        have htells := report_tells (t.wreckAll M.stock.contexts) e
        rwa [Tells, armed_wreckAll] at htells
      · rw [hr]
        exact .inr ⟨ha, u, rfl, hu⟩
  | false =>
    rw [if_neg Bool.false_ne_true, if_neg Bool.false_ne_true]
    cases he : dropEvent? m M with
    | none => exact ⟨_, by rwa [Tells, ← harmed], destroyAll_muted t M.stock.contexts⟩
    | some e =>
      dsimp only
      rw [report_muted t e (dropEvent?_muted? he)]
      refine ⟨(t.record e).wreckAll M.stock.contexts, ?_, destroyAll_muted _ M.stock.contexts⟩
      rw [Tells, ← harmed]
      obtain hr | ⟨ha, u, hr, hu⟩ := report_tells t e
      · rw [hr]
        exact destroyAll_tells (t.record e) M.stock.contexts
      · rw [hr]
        exact .inr ⟨ha, _, rfl, by simpa using hu⟩

theorem dropManager_muted (h : Spares s (s.dropManager i m M)) :
    s.muted.dropManager i m M.muted = (s.dropManager i m M).muted := by
  obtain ⟨t, hr | ⟨ha, u, hr, hu⟩, ht⟩ := ending_tells s m M
  · rw [dropManager_eq, ht, dropManager_eq, hr]
    exact finish_muted t i .done
  · rw [dropManager_eq, hr] at h
    exact absurd (h (by simpa using hu)) ha

/-! ## Making managers and contexts -/

theorem establish_muted (s : State σ) (i factory : Nat) (plan : Plan) :
    s.muted.establish i factory plan = (s.establish i factory plan).muted := by
  have hwarming : ∀ plan : Plan,
      s.muted.takeManagerId.put i (.warming s.muted.nextManager plan factory []) =
        (s.takeManagerId.put i (.warming s.nextManager plan factory [])).muted := by
    intro plan
    rw [nextManager_muted, takeManagerId_muted]
    exact put_muted _ i (.warming s.nextManager plan factory [])
  unfold establish
  cases plan with
  | single => exact hwarming .single
  | pool config =>
    dsimp only
    cases config.fault? with
    | some fault => exact finish_muted s i (.failed (.invalidConfig fault))
    | none =>
      dsimp only
      split
      · exact hwarming (.pool config)
      · rw [takeManagerId_muted]
        exact finish_muted _ i (.panicked capacityPayload)

theorem madeEvent_muted? (m : ManagerId) (plan : Plan) (name : String)
    (built : List (Context σ)) :
    (madeEvent m plan name built).muted? =
      some (madeEvent m plan "" (built.map Context.muted)) := by
  cases plan with
  | pool config => simp [madeEvent, Event.muted?]
  | single => cases built <;> rfl

theorem firstManager_muted (plan : Plan) (factory : Nat) (built : List (Context σ)) :
    firstManager plan factory (built.map Context.muted) =
      (firstManager plan factory built).muted := by
  cases plan with
  | pool config => rfl
  | single => cases built <;> rfl

theorem warm_muted {plan : Plan} {factory : Nat} {built : List (Context σ)}
    (h : Spares s (s.warm i m plan factory built)) :
    s.muted.warm i m plan factory (built.map Context.muted) =
      (s.warm i m plan factory built).muted := by
  unfold warm at h ⊢
  rw [List.length_map]
  split
  · rw [if_pos ‹_›] at h
    obtain ⟨hb, harmed⟩ | ⟨ha, u, hb, hu⟩ := build_tells s factory
    · rw [hb]
      cases hbuild : s.build factory with
      | mk t b =>
        rw [hbuild] at h harmed
        cases b with
        | context c =>
          have hplace := put_muted t i
            (.warming m plan factory (built ++ [{ c with owner := some m }]))
          rw [Place.muted, List.map_append] at hplace
          exact hplace
        | panicked payload =>
          dsimp only [Built.muted]
          rw [wreckAll_muted]
          exact finish_muted _ i (.panicked payload)
        | failed e =>
          dsimp only [Built.muted] at h ⊢
          rw [destroyAll_muted]
          obtain hr | ⟨ha, u, hr, hu⟩ := destroyAll_tells t built
          · rw [hr]
            exact finish_muted _ i (.failed e)
          · rw [hr] at h
            rw [harmed] at ha
            exact absurd (h (by simpa using hu)) ha
    · rw [hb] at h
      exact absurd (h (by simpa using hu)) ha
  · rw [if_neg ‹_›] at h
    have hname : ((s.muted.factories[factory]?).map Factory.name).getD "" = "" := by
      rw [factory?_muted]
      cases s.factories[factory]? <;> rfl
    dsimp only at h ⊢
    rw [hname, report_muted _ _ (madeEvent_muted? m plan _ built), firstManager_muted]
    obtain hr | ⟨ha, u, hr, hu⟩ := report_tells s
      (madeEvent m plan (((s.factories[factory]?).map Factory.name).getD "") built)
    · rw [hr]
      dsimp only
      rw [← finish_muted, ← setManager_muted]
      rfl
    · rw [hr] at h
      exact absurd (h (by simpa using hu)) ha

theorem create_muted {factory : Nat} (h : Spares s (s.create i factory)) :
    s.muted.create i factory = (s.create i factory).muted := by
  unfold create at h ⊢
  obtain ⟨hb, -⟩ | ⟨ha, u, hb, hu⟩ := build_tells s factory
  · rw [hb]
    rcases s.build factory with ⟨t, c | e | payload⟩
    · exact put_muted t i (.holding .direct c)
    · exact finish_muted t i (.failed e)
    · exact finish_muted t i (.panicked payload)
  · rw [hb] at h
    exact absurd (h (by simpa using hu)) ha

theorem letGo_muted {c : Context σ} (h : Spares s (s.letGo i c)) :
    s.muted.letGo i c.muted = (s.letGo i c).muted := by
  unfold letGo destroy at h ⊢
  rw [destroyFor_unarmed rfl, wreck_muted]
  obtain hr | ⟨ha, u, hr, hu⟩ := destroyFor_tells s false c
  · rw [hr]
    exact finish_muted _ i .done
  · rw [hr] at h
    exact absurd (h (by simpa using hu)) ha

/-! ## Moves -/

theorem withManager_muted {f : Manager σ → State σ} {g : Manager Unit → State Unit}
    (h : ∀ t, s.withManager m f = some t → Spares s t)
    (hf : ∀ M, Spares s (f M) → g M.muted = (f M).muted) :
    s.muted.withManager m g = (s.withManager m f).map muted := by
  unfold withManager at h ⊢
  rw [manager?_muted]
  cases hM : s.manager? m with
  | none => rfl
  | some M =>
    rw [hM] at h
    exact congrArg some (hf M (h _ rfl))

theorem step?_muted (hooks : Hooks σ)
    (h : ∀ t, s.step? hooks.invoke i chosen = some t → Spares s t) :
    s.muted.step? mute i chosen = (s.step? hooks.invoke i chosen).map muted := by
  unfold step? at h ⊢
  rw [place?_muted]
  cases hp : s.places[i]? with
  | none => rfl
  | some p =>
    rw [hp] at h
    cases p with
    | asking r => exact withManager_muted h fun M hM => ask_muted hM
    | building r => exact withManager_muted h fun M hM => grow_muted hM
    | grown r c => exact withManager_muted h fun M hM => countGrown_muted hM
    | abandoned r e => exact withManager_muted h fun M _ => abandon_muted s i r e chosen
    | running m hook arguments c => exact congrArg some (callHook_muted hooks (h _ rfl))
    | returning m aim c => exact withManager_muted h fun M hM => giveBack_muted hM
    | evicting m aim c => exact withManager_muted h fun M hM => evict_muted hM
    | stopping m => exact withManager_muted h fun M _ => stop_muted s i m M
    | draining m active first rest => exact withManager_muted h fun M hM => drain_muted hM
    | warming m plan factory built => exact congrArg some (warm_muted (h _ rfl))
    | creating factory => exact congrArg some (create_muted (h _ rfl))
    | asleep r => rfl
    | holding tenure c => rfl
    | refused c => rfl
    | finished o => rfl

theorem isFree_muted (s : State σ) (i : Nat) : s.muted.isFree i = s.isFree i := by
  unfold isFree
  rw [place?_muted, length_places_muted]
  cases s.places[i]? with
  | none => rfl
  | some p => cases p <;> rfl

theorem inUse_muted (s : State σ) (m : ManagerId) : s.muted.inUse m = s.inUse m := by
  simp only [inUse, muted, List.any_map, Function.comp_def, Place.uses_muted]

theorem begin?_muted {operation : Operation}
    (h : ∀ t, s.begin? i operation = some t → Spares s t) :
    s.muted.begin? i operation.muted = (s.begin? i operation).map muted := by
  unfold begin? at h ⊢
  rw [isFree_muted]
  split
  case isFalse => rfl
  rw [if_pos ‹_›] at h
  cases operation with
  | acquire m purpose timeout =>
    exact withManager_muted h fun _ _ => put_muted s i (.asking ⟨m, purpose, s.deadline? timeout⟩)
  | shutDown m => exact withManager_muted h fun _ _ => put_muted s i (.stopping m)
  | dropManager m =>
    dsimp only [Operation.muted] at h ⊢
    rw [inUse_muted]
    split
    · rfl
    · rw [if_neg ‹_›] at h
      exact withManager_muted h fun M hM => dropManager_muted hM
  | establish factory plan =>
    dsimp only [Operation.muted]
    rw [length_factories_muted]
    split
    · exact congrArg some (establish_muted s i factory plan)
    · rfl
  | create factory =>
    dsimp only [Operation.muted]
    rw [length_factories_muted]
    split
    · exact congrArg some (put_muted s i (.creating factory))
    · rfl

theorem handle?_muted {handling : Handling}
    (h : ∀ t, s.handle? i handling = some t → Spares s t) :
    s.muted.handle? i handling = (s.handle? i handling).map muted := by
  unfold handle? at h ⊢
  rw [place?_muted]
  cases hp : s.places[i]? with
  | none => rfl
  | some p =>
    rw [hp] at h
    cases p with
    | holding tenure c =>
      cases tenure with
      | direct =>
        cases handling with
        | close m => exact withManager_muted h fun _ _ => put_muted s i (.returning m .close c)
        | leave => exact congrArg some (letGo_muted (h _ rfl))
        | unwind payload =>
          exact congrArg some ((congrArg (finish · i (.panicked payload)) (wreck_muted s c)).trans
            (finish_muted (s.wreck c) i (.panicked payload)))
        | release => rfl
        | recover => rfl
      | leased m =>
        cases handling with
        | close k => rfl
        | leave => exact congrArg some (put_muted s i (.returning m .leave c))
        | unwind payload => exact congrArg some (put_muted s i (.returning m (.unwind payload) c))
        | release => exact congrArg some (put_muted s i (.returning m .close c))
        | recover => rfl
    | refused c =>
      cases handling with
      | recover => exact congrArg some (put_muted s i (.holding .direct c))
      | _ => rfl
    | _ => rfl

/-- **What is left of a state goes its own way**: a move leads from what is left of a state to what
is left of the one that it leads to, whatever the hooks do, unless the sink panics. -/
theorem move_muted (hooks : Hooks σ) {mv : Move σ}
    (h : ∀ t, s.move hooks.invoke mv = some t → Spares s t) :
    s.muted.move mute mv.muted = (s.move hooks.invoke mv).map muted := by
  cases mv with
  | begin i operation => exact begin?_muted h
  | run i chosen => exact step?_muted hooks h
  | handle i handling => exact handle?_muted h
  | use i script =>
    simp only [Move.muted, move, use?]
    rw [place?_muted]
    cases s.places[i]? with
    | none => rfl
    | some p =>
      cases p with
      | holding tenure c => exact congrArg some (put_muted s i (.holding tenure { c with script }))
      | _ => rfl
  | rouse i =>
    simp only [Move.muted, move, rouse?]
    rw [place?_muted]
    cases s.places[i]? with
    | none => rfl
    | some p =>
      cases p with
      | asleep r => exact congrArg some (put_muted s i (.asking r))
      | _ => rfl
  | tick nanos => rfl
  | arm text => rfl

end State
end Lending
end HookPool
