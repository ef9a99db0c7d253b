import Descent.LinearSystem
import Descent.Operator.Custom

/-!
# Linear systems with operators of the callers' own

`solveCustom` is `solveLinear` for operators whose images may have any length.

* `LinearSystem.runCustom`: the first image is subtracted from the right-hand side, and both are
  stretched to a common length for that.
* `LinearSystem.runFrom`: the solve goes on with vectors of this length. All later images are
  multiplied with such a vector at once, so they have this length or end the solve. The point is
  stretched as soon as it moves.
-/

namespace Descent

namespace LinearSystem

variable {α σ : Type} [Numeral α]

/-- A guess brought to a length: a single entry is repeated. -/
def stretchGuess (n : Nat) (guess : Array α) : Vec α n :=
  ⟨Ray.stretch n guess, by unfold Ray.stretch; split <;> simp_all⟩

/-- The solve after its first residual, for as many unknowns as the residual has entries. -/
def runFrom (A : CustomOperator α σ) (preconditioner : Option (CustomOperator α σ))
    (residual guess : Array α) (tolerance : α) (budget : Nat) : Run α σ (Array α) := do
  let n := residual.size
  let residual := Vec.ofArray residual
  let system : System α σ n := ⟨A.actsOn n, preconditioner.map fun op => op.actsOn n⟩
  let smoothed ← system.smooth residual
  let report ← iterate system tolerance budget 0
    ⟨stretchGuess n guess, residual, smoothed, Vec.dot residual smoothed⟩
  Run.debug .linearSystem fun _ => report.line
  return if report.iterations = 0 then guess else report.point.toArray

/-- Solves the system for a right-hand side `b` from a guess. -/
def runCustom {n : Nat} (A : CustomOperator α σ) (preconditioner : Option (CustomOperator α σ))
    (b guess : Vec α n) (tolerance : α) (budget : Nat) : Run α σ (Array α) := do
  let image ← A.apply guess.toArray
  let residual ← Run.ofExcept (Ray.entrywise (· - ·) b.toArray image)
  if Vec.norm (Vec.ofArray residual) < tolerance || n = 0 then return guess.toArray
  runFrom A preconditioner residual guess.toArray tolerance budget

end LinearSystem

open LinearSystem in
/-- Solves `A x = b` for operators of any kind and data as callers give them. The data are read in
the same way whatever the operators are. -/
def solveCustom {α σ : Type} [Numeral α] (A : CustomOperator α σ) (b guess : Datum α)
    (options : Options α) (maxIterations : Datum α)
    (preconditioner : Option (CustomOperator α σ)) : Run α σ (Array α) := do
  let task ← Run.ofExcept (Task.read (.operator (.zero : Operator α σ)) b guess options
    maxIterations none)
  runCustom A preconditioner task.rhs task.guess task.tolerance task.budget

end Descent
