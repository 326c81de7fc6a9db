/-
# Calls that nobody comes to grief in

While the sink is not armed and no factory takes its caller along, a caller that calls a hook never
comes to grief: whatever its next step is, it ends up somewhere else in its call, or finished.  The
factory of its manager has to be there, as asking one that is not would be the end of the caller.

`Place.InCall` says that a caller is somewhere in a call through a manager, or has finished one;
`Tame.step_call` says what its next step leaves alone.
-/
import HookPool.Proofs.Lending.Quiet
import HookPool.Proofs.Lending.Registry

namespace HookPool
namespace Lending

variable {σ : Type}

/-- However often it is asked, the factory does not take its caller along. -/
def Factory.Tame (f : Factory σ) : Prop := ∀ n payload, f.product n ≠ .panics payload

/-- The opener waits for as long as it takes, to call a hook through the manager. -/
def Request.Calls (r : Request) (m : ManagerId) : Prop :=
  r.manager = m ∧ r.deadline = none ∧ ∃ hook arguments, r.purpose = .call hook arguments

/-- The caller is somewhere in a call of a hook through the manager, or has finished something. -/
def Place.InCall (m : ManagerId) : Place σ → Prop
  | .asking r | .asleep r | .building r | .grown r _ | .abandoned r _ => r.Calls m
  | .running k _ _ _ | .returning k (.reply _) _ | .evicting k (.reply _) _ => k = m
  | .finished o => ∀ payload, o ≠ .panicked payload
  | _ => False

namespace Place

variable {m : ManagerId} {p : Place σ}

theorem InCall.calm (h : p.InCall m) : p.isGrieving = false := by
  cases p with
  | finished o =>
    cases o with
    | panicked payload => exact absurd rfl (h payload)
    | _ => rfl
  | returning k aim c => cases aim <;> first | rfl | cases h
  | evicting k aim c => cases aim <;> first | rfl | cases h
  | _ => rfl

theorem InCall.finished_failed (m : ManagerId) (e : Error) :
    (finished (.failed e) : Place σ).InCall m := by
  intro payload h
  cases h

/-- A return with a reply to give finishes in the reply or an error. -/
theorem InCall.finished_verdict (m : ManagerId) (reply : Except Error HookReply)
    (result : Except Error Unit) :
    (finished (Aim.verdict (.reply reply) result) : Place σ).InCall m := by
  intro payload h
  cases reply <;> cases result <;> cases h

theorem InCall.served {r : Request} (h : r.Calls m) (c : Context σ) : (r.served c).InCall m := by
  obtain ⟨rfl, -, hook, arguments, hp⟩ := h
  unfold Request.served
  rw [hp]
  exact rfl

end Place

namespace State

variable {invoke : Invoke σ} {s t : State σ} {i chosen : Nat} {m : ManagerId} {M : Manager σ}
  {p : Place σ} {r : Request} {c : Context σ}

/-- The sink is not armed, and no factory takes its caller along. -/
structure Tame (s : State σ) : Prop where
  unarmed : s.armed = none
  factories : ∀ f ∈ s.factories, f.Tame

/-- The caller `i` has come to some place in its call, or to its end; the sink, the factories and the
number of callers are left alone. -/
def GoesOn (s : State σ) (i : Nat) (m : ManagerId) (t : State σ) : Prop :=
  ∃ t₀ q, t = t₀.put i q ∧ Undisturbed s t₀ ∧ q.InCall m

/-! ## Whoever has its context -/

/-- **Whoever runs a hook goes on**, if the sink is not armed. -/
theorem callHook_goesOn (h : s.armed = none) (invoke : Invoke σ) (i : Nat) (m : ManagerId)
    (hook : String) (arguments : List HookArg) (c : Context σ) :
    GoesOn s i m (callHook invoke s i m hook arguments c) := by
  have hs := (Undisturbed.refl h).print (invoke c.script hook arguments).printed
  unfold callHook
  dsimp only
  cases (invoke c.script hook arguments).reply? with
  | some reply => exact ⟨_, .returning m (.reply reply) _, rfl, hs, rfl⟩
  | none =>
    dsimp only
    rw [report_unarmed hs.unarmed]
    exact ⟨_, .returning m (.reply (.ok .notImplemented)) _, rfl, hs.record _, rfl⟩

/-- Whoever gives a context back goes on, if the sink is not armed. -/
theorem giveBack_goesOn (h : s.armed = none) (i : Nat) (m : ManagerId)
    (reply : Except Error HookReply) (ho : c.owner = some m) (M : Manager σ) (chosen : Nat) :
    GoesOn s i m (s.giveBack i m (.reply reply) c M chosen) := by
  unfold giveBack
  rw [if_neg (not_not_intro ho)]
  split
  · rw [destroyFor_unarmed h]
    have hs := (Undisturbed.refl h).wreck c
    obtain ⟨t, ht, -, ht'⟩ := conclude_unarmed hs.unarmed i (.reply reply) (.error .lockFailed)
    exact ⟨t, _, ht, hs.trans ht', .finished_verdict m reply _⟩
  · obtain ⟨t, ht, ht'⟩ := takeBack_unarmed h i m (.reply reply) c M chosen
    refine ⟨t, _, ht, ht', ?_⟩
    split
    · exact .finished_verdict m reply _
    · exact rfl

/-- Whoever destroys a context goes on, if the sink is not armed. -/
theorem evict_goesOn (h : s.armed = none) (i : Nat) (m : ManagerId) (reply : Except Error HookReply)
    (c : Context σ) (M : Manager σ) : GoesOn s i m (s.evict i m (.reply reply) c M) := by
  have hs := (Undisturbed.refl h).discarded m M c
  unfold evict
  rw [discard_unarmed h]
  dsimp only
  rw [conclude_ok]
  exact ⟨_, _, rfl, hs, .finished_verdict m reply _⟩

namespace Undisturbed

theorem length_factories (h : Undisturbed s t) : t.factories.length = s.factories.length := by
  have hl := congrArg List.length h.products
  rwa [List.length_map, List.length_map] at hl

theorem tame (h : Undisturbed s t) (hs : s.Tame) : t.Tame := by
  refine ⟨h.unarmed, fun f hf => ?_⟩
  have hmem : f.product ∈ t.factories.map Factory.product := List.mem_map_of_mem hf
  rw [h.products] at hmem
  obtain ⟨g, hg, he⟩ := List.mem_map.1 hmem
  intro n payload
  rw [← he]
  exact hs.factories g hg n payload

end Undisturbed

namespace Tame

theorem put (h : s.Tame) (i : Nat) (p : Place σ) : (s.put i p).Tame where
  unarmed := by rw [armed_put, h.unarmed]
  factories := by
    rw [factories_put]
    exact h.factories

/-- **A tame factory that is there makes a context, or fails.** -/
theorem build (h : s.Tame) {factory : Nat} (hf : factory < s.factories.length) :
    ∃ t b, s.build factory = (t, b) ∧ Undisturbed s t ∧ ∀ payload, b ≠ .panicked payload := by
  obtain ⟨maker, hmaker⟩ : ∃ maker, s.factories[factory]? = some maker :=
    ⟨_, List.getElem?_eq_getElem hf⟩
  have htame := h.factories maker (List.mem_of_getElem? hmaker) maker.asked
  have hsame := map_product_set hmaker (maker.asked + 1)
  unfold State.build
  rw [hmaker]
  dsimp only
  cases hp : maker.product maker.asked with
  | panics payload => exact absurd hp (htame payload)
  | failed e lines =>
    refine ⟨_, _, rfl, ⟨h.unarmed, hsame, rfl⟩, ?_⟩
    intro payload hb
    cases hb
  | loaded name script lines =>
    dsimp only
    rw [report_unarmed (by exact h.unarmed)]
    refine ⟨_, _, rfl, ⟨h.unarmed, hsame, rfl⟩, ?_⟩
    intro payload hb
    cases hb

/-! ## Steps of a call -/

theorem ask (h : s.Tame) (i : Nat) (hr : r.Calls m) (M : Manager σ) :
    GoesOn s i m (s.ask i r M) := by
  have hs := Undisturbed.refl h.unarmed
  unfold State.ask
  split
  · exact ⟨s, _, rfl, hs, .finished_failed m _⟩
  · split
    · exact ⟨s, _, rfl, hs, .finished_failed m _⟩
    · cases M.stock.offer with
      | lent c rest =>
        have hs := hs.setManager r.manager (some (M.withStock rest))
        dsimp only
        rw [report_unarmed hs.unarmed]
        exact ⟨_, r.served c, rfl, hs.record _, .served hr c⟩
      | reserved rest => exact ⟨_, .building r, rfl, hs.setManager r.manager _, hr⟩
      | full =>
        dsimp only
        unfold State.await
        rw [hr.2.1]
        exact ⟨s, .asleep r, rfl, hs, hr⟩

theorem grow (h : s.Tame) (i : Nat) (hr : r.Calls m) (hf : M.factory < s.factories.length) :
    GoesOn s i m (s.grow i r M) := by
  obtain ⟨t, b, hb, ht, hcalm⟩ := h.build hf
  unfold State.grow
  rw [hb]
  cases b with
  | context c => exact ⟨t, .grown r { c with owner := some r.manager }, rfl, ht, hr⟩
  | panicked payload => exact absurd rfl (hcalm payload)
  | failed e =>
    dsimp only
    rw [report_unarmed ht.unarmed]
    exact ⟨_, .abandoned r e, rfl, ht.record _, hr⟩

theorem countGrown (h : s.Tame) (i : Nat) (hr : r.Calls m) (c : Context σ) :
    GoesOn s i m (s.countGrown i r c) := by
  have hs := (Undisturbed.refl h.unarmed).onManager r.manager Manager.countCreated
  unfold State.countGrown
  rw [report_unarmed hs.unarmed]
  exact ⟨_, r.served c, rfl, hs.record _, .served hr c⟩

theorem abandon (h : s.Tame) (i : Nat) (r : Request) (e : Error) (chosen : Nat) :
    GoesOn s i m (s.abandon i r e chosen) := by
  have hs := (Undisturbed.refl h.unarmed).onManager r.manager
    fun M => M.withStock M.stock.vacate
  exact ⟨_, _, rfl, hs.wakeOne r.manager chosen, .finished_failed m e⟩

/-- **Whoever is in a call goes on with it**, whatever its next step is. -/
theorem step_call (h : s.Tame) (hp : s.places[i]? = some p) (hcall : p.InCall m)
    (hmark : p.Marked) (hM : s.manager? m = some M) (hf : M.factory < s.factories.length)
    (ht : s.step? invoke i chosen = some t) : GoesOn s i m t := by
  unfold step? at ht
  rw [hp] at ht
  cases p with
  | asking r =>
    obtain ⟨M, -, rfl⟩ := withManager_eq_some ht
    exact h.ask i hcall M
  | building r =>
    obtain ⟨M', hM', rfl⟩ := withManager_eq_some ht
    obtain rfl := Option.some.inj (hM.symm.trans (hcall.1 ▸ hM'))
    exact h.grow i hcall hf
  | grown r c =>
    obtain ⟨M, -, rfl⟩ := withManager_eq_some ht
    exact h.countGrown i hcall c
  | abandoned r e =>
    obtain ⟨M, -, rfl⟩ := withManager_eq_some ht
    exact h.abandon i r e chosen
  | running k hook arguments c =>
    obtain rfl := Option.some.inj ht
    exact (show k = m from hcall) ▸ callHook_goesOn h.unarmed invoke i k hook arguments c
  | returning k aim c =>
    obtain ⟨M, -, rfl⟩ := withManager_eq_some ht
    cases aim with
    | reply reply =>
      obtain rfl : k = m := hcall
      exact giveBack_goesOn h.unarmed i k reply (hmark.resolve_left (by simp)) M chosen
    | _ => cases hcall
  | evicting k aim c =>
    obtain ⟨M, -, rfl⟩ := withManager_eq_some ht
    cases aim with
    | reply reply =>
      obtain rfl : k = m := hcall
      exact evict_goesOn h.unarmed i k reply c M
    | _ => cases hcall
  | asleep r => cases ht
  | finished o => cases ht
  | holding tenure c => cases ht
  | refused c => cases ht
  | stopping k => cases hcall
  | draining k active first rest => cases hcall
  | warming k plan factory built => cases hcall
  | creating factory => cases hcall

end Tame
end State
end Lending
end HookPool
