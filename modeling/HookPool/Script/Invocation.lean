/-
# Scripts as managers see them

A manager knows of a script how it is loaded and what a call of a hook does to it.  A script is loaded
afresh for each context, each time on an occasion of its own.
-/
import HookPool.Lending.Factory
import HookPool.Script.Source

namespace HookPool
namespace Script
namespace Interpreter

variable {ω σ τ φ : Type} (ip : Interpreter ω σ τ φ)

/-- What comes of calling a hook. -/
def invoke (c : Loaded σ τ) (hook : String) (arguments : List HookArg) :
    Lending.Invocation (Loaded σ τ) :=
  let (reply?, c) := ip.reply? c hook arguments
  let (printed, c) := ip.takeLines c
  ⟨c, printed, reply?⟩

/-- What a factory makes of a script on an occasion. -/
def product (occasion : ω) (source : Source) : Lending.Product (Loaded σ τ) :=
  match ip.loadSource occasion source with
  | (.ok c, printed) => .loaded source.name c printed
  | (.error e, printed) => .failed e printed

/-- The factory that loads a script each time it is asked, on one occasion after the other. -/
def factory (occasions : Nat → ω) (source : Source) : Lending.Factory (Loaded σ τ) where
  name := source.name
  product n := ip.product (occasions n) source

end Interpreter
end Script
end HookPool
