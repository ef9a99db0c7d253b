import Descent.Barrier.Jacobi
import Descent.Minimize.Conjugate
import Descent.Minimize.Newton

/-!
# Constrained minimization along the central path

A function `f` is minimized under the constraints of a barrier `φ` by minimizing `f + φ / t` for
growing scales `t`, each stage starting from the result of the one before. At the minimum of a stage
the multipliers are dual feasible and the duality gap is their number divided by `t`; the path is
followed until that gap is small enough.

* `CentralPath.Options`: what callers can set, and the `CentralPath.Schedule` that follows from it:
  the scales, the gap to reach and the budget of stages;
* `CentralPath.arrive`: one stage, with the multipliers and the gap where it ends;
* `CentralPath.follow`: the loop over the stages, for any way to minimize a stage;
* `CentralPath.stagePreconditioner`: a preconditioner for `t f + φ` scaled to one for `f + φ / t`;
* `CentralPath.conjugateStage` and `CentralPath.newtonStage`: the stages minimized by conjugate
  gradients and by truncated Newton; `minimizeConjugateConstrained` and `minimizeNewtonConstrained`:
  the path with these stages.

The start must be strictly feasible. This is not checked.
-/

namespace Descent

namespace CentralPath

/-- How a run ended. -/
inductive Status where
  | optimal
  | stageBudget
  deriving DecidableEq, Repr

/-- The wording of a status. -/
def Status.text : Status → String
  | .optimal => "optimal"
  | .stageBudget => "max_iter"

/-- The result of a run: the point with the multipliers, the scale and the gap of the last stage,
the number of stages, and the gap after every stage. -/
structure Certificate (α : Type) where
  optimum : Array α
  multipliers : Array α
  scale : α
  dualityGap : α
  stages : Nat
  status : Status
  gapHistory : List α

/-- What callers can set. -/
structure Options (α : Type) [Scalar α] where
  /-- The gap below which the path ends. -/
  dualityGap : Datum α := .number (.real 1e-8)
  /-- The first scale. -/
  initialScale : Datum α := .number (.real 1.0)
  /-- The growth of the scale from one stage to the next. -/
  scaleFactor : Datum α := .number (.real 10.0)
  /-- The budget of stages. -/
  maxStages : Datum α := .number (.whole 100)

/-- The scales and the end of the path, within their bounds. -/
structure Schedule (α : Type) where
  dualityGap : Number α
  initialScale : Number α
  scaleFactor : Number α
  maxStages : Number α

/-- Reads what callers have set; the first part that is out of its bounds decides the fault. -/
def Options.schedule {α : Type} [Numeral α] (o : Options α) : Except Fault (Schedule α) := do
  return {
    dualityGap := ← o.dualityGap.insist "duality_gap" .positive
    initialScale := ← o.initialScale.insist "barrier_initial_scale" .positive
    scaleFactor := ← o.scaleFactor.insist "barrier_scale_factor" .aboveOne
    maxStages := ← o.maxStages.insist "max_stages" .atLeastOne }

section

variable {α σ : Type} [Numeral α]

/-- A way to minimize the stage at a scale from a point, with the preconditioner of that stage. -/
abbrev Stage (α σ : Type) := Array α → α → Option (Tensor α σ) → Run α σ (Array α)

/-- A preconditioner for the Hessian of `t f + φ`, as a function of the scale. -/
abbrev Preconditioner (α σ : Type) := α → Run α σ (Tensor α σ)

/-- The preconditioner of the stage at scale `t`: `t` times the one for `t f + φ`. -/
def stagePreconditioner (preconditioner : Option (Preconditioner α σ)) (t : α) :
    Run α σ (Option (Tensor α σ)) := do
  match preconditioner with
  | none => return none
  | some atScale =>
    let tensor ← atScale t
    return some (.varying fun x => do
      let op ← tensor.operatorAt (Vec.ofArray x)
      return .operator (op.scaled t))

/-- The line about a stage. -/
def stageLine (stage : Nat) (t gap : α) : String :=
  "barrier stage " ++ stage.repr ++ ": t=" ++ Numeral.scientific 3 t ++ ", gap estimate " ++
    Numeral.scientific 3 gap

/-- The line about a path that ends without reaching its gap. -/
def exhaustedLine (gap : α) : String :=
  "barrier stage budget exhausted with gap estimate " ++ Numeral.scientific 3 gap

/-- Where a stage ended. -/
structure Arrival (α : Type) where
  point : Array α
  multipliers : Array α
  scale : α
  gap : α

/-- The certificate of a path that ends with a stage, given the gaps of all stages, the last one
first. -/
def Arrival.certificate (a : Arrival α) (status : Status) (gaps : List α) : Certificate α :=
  ⟨a.point, a.multipliers, a.scale, a.gap, gaps.length, status, gaps.reverse⟩

/-- The stage at scale `t` from a point, when `done` stages are complete. -/
def arrive (stage : Stage α σ) (barrier : Barrier α σ)
    (preconditioner : Option (Preconditioner α σ)) (done : Nat) (x : Array α) (t : α) :
    Run α σ (Arrival α) := do
  let smoother ← stagePreconditioner preconditioner t
  let x ← stage x t smoother
  let multipliers ← barrier.multipliers t (Vec.ofArray x)
  let gap := Scalar.ofNat multipliers.size / t
  Run.debug .centralPath fun _ => stageLine (done + 1) t gap
  return ⟨x, multipliers, t, gap⟩

/-- Follows the path from scale `t` on: one stage, and then at most `left` more. `gaps` are the gaps
after the stages that are complete, the last one first. -/
def follow (stage : Stage α σ) (barrier : Barrier α σ) (schedule : Schedule α)
    (preconditioner : Option (Preconditioner α σ)) :
    (left : Nat) → (gaps : List α) → (x : Array α) → (t : α) → Run α σ (Certificate α)
  | 0, gaps, x, t => do
    let a ← arrive stage barrier preconditioner gaps.length x t
    if a.gap < schedule.dualityGap.ceiling then return a.certificate .optimal (a.gap :: gaps)
    else
      Run.debug .centralPath fun _ => exhaustedLine a.gap
      return a.certificate .stageBudget (a.gap :: gaps)
  | left + 1, gaps, x, t => do
    let a ← arrive stage barrier preconditioner gaps.length x t
    if a.gap < schedule.dualityGap.ceiling then return a.certificate .optimal (a.gap :: gaps)
    else
      let factor ← Run.ofExcept schedule.scaleFactor.toScalar
      follow stage barrier schedule preconditioner left (a.gap :: gaps) a.point (t * factor)

/-- Follows the path from a start as callers give it. -/
def followFrom (stage : Stage α σ) (barrier : Barrier α σ) (schedule : Schedule α)
    (preconditioner : Option (Preconditioner α σ)) (start : Datum α) :
    Run α σ (Certificate α) := do
  let x ← Run.ofExcept (start.toVector "w0")
  let t ← Run.ofExcept schedule.initialScale.toScalar
  follow stage barrier schedule preconditioner (schedule.maxStages.roundsUntil - 1) [] x t

/-- The objective of the stage at scale `t`. -/
def stageValue (value : Option (ScalarField α σ)) (barrier : Barrier α σ) (t : α) :
    ScalarField α σ := fun w => do
  match value with
  | none => throw .notApplicable
  | some f =>
    let a ← f w
    let b ← barrier.value (Vec.ofArray w)
    return a + b / t

/-- Its gradient. -/
def stageGradient (gradient : VectorField α σ) (barrier : Barrier α σ) (t : α) :
    VectorField α σ := fun w => do
  let a ← gradient.valueAt "gradient" (Vec.ofArray w)
  let b ← barrier.gradient (Vec.ofArray w)
  return .vector (a + Vec.divideBy b t).toArray

/-- Its second derivative. -/
def stageHessian (hessian : Tensor α σ) (barrier : Barrier α σ) (t : α) : Tensor α σ :=
  .varying fun w => do
    let a ← hessian.operatorAt (Vec.ofArray w)
    let b ← barrier.hessian (Vec.ofArray w)
    return .operator (← Run.ofExcept (a.add (b.scaled (1 / t))))

/-- Whether the barrier is undefined at a point. -/
def outside (barrier : Barrier α σ) : Region α σ :=
  fun w => barrier.outside (Vec.ofArray w)

/-- The stages minimized by nonlinear conjugate gradients. -/
def conjugateStage (value : Option (ScalarField α σ)) (gradient : VectorField α σ)
    (barrier : Barrier α σ) (options : Conjugate.Options α σ) : Stage α σ := fun x t smoother =>
  minimizeConjugate (some (stageValue value barrier t)) (stageGradient gradient barrier t)
    (.vector x) options (outside barrier) smoother

/-- The stages minimized by truncated Newton steps. -/
def newtonStage (gradient : VectorField α σ) (hessian : Tensor α σ) (barrier : Barrier α σ)
    (options : Newton.Options α σ) : Stage α σ := fun x t smoother =>
  minimizeNewton (stageGradient gradient barrier t) (stageHessian hessian barrier t) (.vector x)
    (outside barrier) options smoother

end

end CentralPath

open CentralPath

variable {α σ : Type} [Numeral α]

/-- Constrained minimization with every stage minimized by nonlinear conjugate gradients. -/
def minimizeConjugateConstrained (value : Option (ScalarField α σ)) (gradient : VectorField α σ)
    (start : Datum α) (barrier : Barrier α σ) (path : CentralPath.Options α)
    (options : Conjugate.Options α σ) (preconditioner : Option (Preconditioner α σ)) :
    Run α σ (Certificate α) := do
  let schedule ← Run.ofExcept path.schedule
  followFrom (conjugateStage value gradient barrier options) barrier schedule preconditioner start

/-- Constrained minimization with every stage minimized by truncated Newton steps. The barrier must
have second derivatives. -/
def minimizeNewtonConstrained (gradient : VectorField α σ) (hessian : Tensor α σ) (start : Datum α)
    (barrier : Barrier α σ) (path : CentralPath.Options α) (options : Newton.Options α σ)
    (preconditioner : Option (Preconditioner α σ)) : Run α σ (Certificate α) := do
  let schedule ← Run.ofExcept path.schedule
  if !barrier.hasHessian then throw .hessianNeeded
  followFrom (newtonStage gradient hessian barrier options) barrier schedule preconditioner start

end Descent
