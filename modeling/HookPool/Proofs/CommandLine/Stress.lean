/-
# What the command line tells of a stress run

The factory of a script never takes its caller along, so that all that is known of crowds goes for
the calls that the command line makes: once it has a manager, it tells of as many calls as it was
told to make, of no context that is still lent, and of an error exactly if a call has failed.
-/
import HookPool.CommandLine.Run
import HookPool.Proofs.CommandLine.Crowd

namespace HookPool

open Lending

variable {ω σ τ φ : Type} {ip : Script.Interpreter ω σ τ φ} {occasions : Nat → ω}

/-- Loading a script gives a context or an error. -/
theorem Script.Interpreter.tame_factory (source : Script.Source) :
    (ip.factory occasions source).Tame := by
  intro n payload h
  simp only [factory, product] at h
  split at h <;> cases h

/-- A manager that is made has been made by a caller. -/
theorem Dispatcher.outcome?_of_establish {invoke : Invoke σ} {factory : Factory σ} {plan : Plan}
    {m : ManagerId} {s : Lending.State σ} (h : establish invoke factory plan = (.made m, s)) :
    (State.initial [factory]).start invoke 0 (.establish 0 plan) = s ∧
      s.outcome? 0 = some (.made m) := by
  obtain ⟨ho, hs⟩ := Prod.mk.inj h
  refine ⟨hs, ?_⟩
  rw [show (stateOf factory).start invoke 0 (.establish 0 plan) = s from hs] at ho
  cases hout : s.outcome? 0 with
  | none =>
    rw [hout] at ho
    cases ho
  | some o =>
    rw [hout] at ho
    exact congrArg some ho

namespace CommandLine

/-- **A stress run that has a manager accounts for all calls**, leaves nothing lent, and ends with an
error exactly if a call has failed. -/
theorem stress_accounts {files : Files} {script : String} {given : Given} {source : Script.Source}
    {plan : Plan} {m : ManagerId} {s : Lending.State (Script.Loaded σ τ)}
    (hsource : Script.Source.ofFile files script = .ok source)
    (hplan : Stress.planOf files given = .ok plan)
    (hmade : Dispatcher.establish ip.invoke (ip.factory occasions source) plan = (.made m, s)) :
    ∃ result error, (stress ip occasions files script given).ending = .calls result error ∧
      result.calls = given.threads.getD Stress.usualThreads * given.calls.getD Stress.usualCalls ∧
        result.tally.total = result.calls ∧ result.stats.active = 0 ∧
          result.stats.created = result.stats.destroyed + result.stats.idle ∧
            ∀ message, error = some message ↔ 0 < result.tally.failed ∧ message =
              toString result.tally.failed ++ " of " ++ toString result.calls ++
                " calls failed" := by
  obtain ⟨hs, ho⟩ := Dispatcher.outcome?_of_establish hmade
  have hending : (stress ip occasions files script given).ending = .calls
      (Stress.drive ip.invoke s m given).result
      (Stress.drive ip.invoke s m given).error? := by
    simp only [stress, hsource, hplan, bind, Except.bind, pure, Except.pure, hmade, completion]
  obtain ⟨M, -, -, h, hj⟩ := Crowd.settle_run (ip.tame_factory source) hs ho
    (given.hook.getD Stress.usualHook) (given.arguments.map parseArgument)
    (given.threads.getD Stress.usualThreads) (given.calls.getD Stress.usualCalls)
  have hcalls : (Stress.drive ip.invoke s m given).result.calls =
      given.threads.getD Stress.usualThreads * given.calls.getD Stress.usualCalls :=
    congrArg (· * given.calls.getD Stress.usualCalls) h.workers
  have hstats : (Stress.drive ip.invoke s m given).result.stats = M.stats := h.stats_eq
  refine ⟨_, _, hending, hcalls, (h.total_eq hj).trans hcalls.symm, ?_, ?_, fun message => ?_⟩
  · rw [hstats]
    exact (h.at_rest hj).1
  · rw [hstats]
    exact (h.at_rest hj).2
  · rw [hcalls]
    exact h.error?_eq hj message

end CommandLine
end HookPool
