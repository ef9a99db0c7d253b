import Descent.Criterion
import Descent.LinearSystem
import Descent.Minimize.Task
import Descent.Ray.Search

/-!
# Minimization by truncated Newton steps

Each step solves `H p = -g` by conjugate gradients, only as far as the size of the gradient
warrants: to the tolerance `min forcing (sqrt |g|) * |g|` and within a cap. The step is then
followed by a search along it that accepts a moderate reduction of the slope.

* `Newton.direction` is the inner solve; a step that does not descend gives way to the
  preconditioned steepest descent;
* `Newton.leg` is one outer iteration: a Newton step without progress is tried once more along the
  steepest descent;
* `Newton.iterate` repeats legs within a budget, `Newton.solve` starts from a point and returns a
  `Report`;
* `Newton.Task.read` reads data as callers give them; `minimizeNewton` solves what was read and
  writes the report as a debug line.
-/

namespace Descent

namespace Newton

/-- The problem as the method sees it, between vectors of one length. -/
structure Problem (α σ : Type) (n : Nat) where
  gradient : Vec α n → Run α σ (Vec α n)
  /-- The second derivative at a point. -/
  hessian : Vec α n → Run α σ (LinearMap α σ n)
  /-- The preconditioner at a point, if there is one. -/
  precondition : Vec α n → Run α σ (Option (LinearMap α σ n))
  outside : Vec α n → Run α σ Bool
  /-- Whether to stop at a gradient after a number of iterations. -/
  stop : Vec α n → Nat → Run α σ Bool

/-- The parameters of the method. -/
structure Rule (α : Type) where
  /-- The budget of every inner solve. -/
  innerBudget : Nat
  /-- The largest relative residual of an inner solve. -/
  forcing : α
  /-- The reduction of the slope that a search accepts. -/
  threshold : α
  /-- The factor by which a step is drawn back from outside the domain. -/
  damping : α

/-- The number of rounds of a search. -/
def rounds : Nat := 60

/-- The state at the head of an iteration. -/
structure State (α : Type) (n : Nat) where
  point : Vec α n
  gradient : Vec α n
  iterations : Nat
  evaluations : Nat

/-- Why a run ends. -/
inductive Exit where
  | criterion
  | budget
  | noProgress
  deriving DecidableEq, Repr

/-- The wording of each way to end. -/
def Exit.text : Exit → String
  | .criterion => "stopping criterion satisfied"
  | .budget => "maximum iterations reached"
  | .noProgress => "step made no progress"

/-- What a run returns. -/
abbrev Report (α : Type) (n : Nat) := Minimize.Report Exit α n

/-- A step to search along, and whether it solves the Newton system. -/
structure Direction (α : Type) (n : Nat) where
  step : Vec α n
  isNewton : Bool

/-- What a search along a step leads to. -/
structure Trial (α : Type) (n : Nat) where
  point : Vec α n
  moved : Bool
  evaluations : Nat

/-- What one outer iteration leads to. -/
inductive Leg (α : Type) (n : Nat) where
  | accepted (state : State α n)
  | ended (state : State α n)

section

variable {α σ : Type} {n : Nat}

/-- The report of a run that ends in a state. -/
def State.report (s : State α n) (exit : Exit) : Report α n :=
  ⟨s.point, s.gradient, s.iterations, s.evaluations, exit⟩

variable [Numeral α]

/-- The tolerance of the inner solve at a gradient. -/
def innerTolerance (rule : Rule α) (g : Vec α n) : α :=
  let norm := Vec.norm g
  Scalar.atMost rule.forcing (Scalar.sqrt norm) * norm

/-- The steepest descent, preconditioned if there is a preconditioner. -/
def steepest (smoother : Option (LinearMap α σ n)) (g : Vec α n) : Run α σ (Vec α n) :=
  match smoother with
  | none => return -g
  | some apply => return -(← apply g)

/-- The step at a state: the truncated solution of the Newton system if it descends, else the
steepest descent. -/
def direction (problem : Problem α σ n) (rule : Rule α) (smoother : Option (LinearMap α σ n))
    (s : State α n) : Run α σ (Direction α n) := do
  let hessian ← problem.hessian s.point
  let inner ← LinearSystem.run ⟨hessian, smoother⟩ (-s.gradient) (Vec.zeros n)
    (innerTolerance rule s.gradient) rule.innerBudget
  if Vec.dot s.gradient inner.point < 0 then return ⟨inner.point, true⟩
  else return ⟨← steepest smoother s.gradient, false⟩

/-- The search along a step, from the full step on. -/
def attempt (problem : Problem α σ n) (rule : Rule α) (s : State α n) (step : Vec α n) :
    Run α σ (Trial α n) := do
  let ray := Ray.through problem.gradient problem.outside s.point step
  let manner : Ray.Rule α := ⟨rule.threshold, 1, rule.damping, rounds⟩
  let found ← Ray.search ray manner (some (Vec.dot s.gradient step))
  let point := Vec.along s.point found.length step
  return ⟨point, !(found.length == 0 || point == s.point), found.evaluations⟩

/-- The state after an accepted step. -/
def arrive (problem : Problem α σ n) (s : State α n) (point : Vec α n) (evaluations : Nat) :
    Run α σ (Leg α n) := do
  let gradient ← problem.gradient point
  return .accepted ⟨point, gradient, s.iterations + 1, s.evaluations + evaluations + 1⟩

/-- One outer iteration. -/
def leg (problem : Problem α σ n) (rule : Rule α) (s : State α n) : Run α σ (Leg α n) := do
  let smoother ← problem.precondition s.point
  let direction ← direction problem rule smoother s
  let first ← attempt problem rule s direction.step
  if first.moved then arrive problem s first.point first.evaluations
  else if direction.isNewton then
    Run.debug .newton fun _ => "Newton step stalled, falling back to steepest descent"
    let second ← attempt problem rule s (← steepest smoother s.gradient)
    let evaluations := first.evaluations + second.evaluations
    if second.moved then arrive problem s second.point evaluations
    else return .ended { s with evaluations := s.evaluations + evaluations }
  else return .ended { s with evaluations := s.evaluations + first.evaluations }

/-- Outer iterations until the criterion holds, at most `budget` of them. -/
def iterate (problem : Problem α σ n) (rule : Rule α) :
    (budget : Nat) → State α n → Run α σ (Report α n)
  | 0, s => do
    if ← problem.stop s.gradient s.iterations then return s.report .criterion
    else return s.report .budget
  | budget + 1, s => do
    if ← problem.stop s.gradient s.iterations then return s.report .criterion
    else
      match ← leg problem rule s with
      | .accepted s => iterate problem rule budget s
      | .ended s => return s.report .noProgress

/-- Minimizes from a starting point. -/
def solve (problem : Problem α σ n) (rule : Rule α) (budget : Nat) (start : Vec α n) :
    Run α σ (Report α n) := do
  let gradient ← problem.gradient start
  iterate problem rule budget ⟨start, gradient, 0, 1⟩

/-- The line that sums up a run. -/
def Report.line (report : Report α n) : String :=
  "truncated Newton: " ++ report.exit.text ++ " after " ++ report.iterations.repr ++
    " iterations (" ++ report.evaluations.repr ++ " gradient evaluations), |g|=" ++
    Numeral.scientific 3 (Vec.norm report.gradient)

end

/-- What callers can set. -/
structure Options (α σ : Type) [Scalar α] where
  stop : CriterionLike α σ := .criterion (.gradientNorm 1e-8)
  /-- The budget of outer iterations. -/
  maxIterations : Datum α := .number (.whole 200)
  /-- The cap on inner iterations; when it is missing, the number of unknowns. -/
  innerMaxIterations : Datum α := .nothing
  forcing : Datum α := .number (.real 0.5)
  lineSearchThreshold : Datum α := .number (.real 0.5)
  dampingFactor : Datum α := .number (.real 0.5)

/-- What callers have set, within its bounds. -/
structure Settings (α σ : Type) where
  maxIterations : Number α
  innerMaxIterations : Option (Number α)
  forcing : α
  lineSearchThreshold : α
  dampingFactor : α
  stop : Criterion α σ

/-- Reads what callers have set; the first part that is out of its bounds decides the fault. -/
def Options.settings {α σ : Type} [Numeral α] (o : Options α σ) :
    Except Fault (Settings α σ) := do
  let cap := o.innerMaxIterations
  return {
    maxIterations := ← o.maxIterations.insist "max_iterations" .nonNegative
    innerMaxIterations := ← cap.given?.mapM (·.insist "inner_max_iterations" .atLeastOne)
    forcing := ← o.forcing.insistInUnit "forcing"
    lineSearchThreshold := ← o.lineSearchThreshold.insistInUnit "line_search_threshold"
    dampingFactor := ← o.dampingFactor.insistInUnit "damping_factor"
    stop := ← o.stop.toCriterion }

/-- The parameters of the method for a number of unknowns. -/
def Settings.rule {α σ : Type} [Numeral α] (s : Settings α σ) (unknowns : Nat) : Rule α where
  innerBudget := (s.innerMaxIterations.map Number.roundsBelow).getD (max unknowns 1)
  forcing := s.forcing
  threshold := s.lineSearchThreshold
  damping := s.dampingFactor

/-- The preconditioner at a point as a map, for a preconditioner as callers give it. -/
def smootherAt {α σ : Type} [Numeral α] {n : Nat} (preconditioner : Option (Tensor α σ))
    (x : Vec α n) : Run α σ (Option (LinearMap α σ n)) :=
  match preconditioner with
  | none => return none
  | some tensor => do
    let op ← tensor.operatorAt x
    return some op.apply

/-- The second derivative at a point as a map, as callers give it. -/
def hessianAt {α σ : Type} [Numeral α] {n : Nat} (hessian : Tensor α σ) (x : Vec α n) :
    Run α σ (LinearMap α σ n) := do
  let op ← hessian.operatorAt x
  return op.apply

/-- The problem that callers pose between vectors of one length. -/
def Problem.posed {α σ : Type} [Numeral α] (n : Nat) (gradient : VectorField α σ)
    (hessian : Tensor α σ) (outside : Region α σ) (preconditioner : Option (Tensor α σ))
    (criterion : Criterion α σ) : Problem α σ n where
  gradient := gradient.valueAt "gradient"
  hessian := hessianAt hessian
  precondition := smootherAt preconditioner
  outside x := outside x.toArray
  stop g count := criterion.holds g (.whole count)

/-- A minimization as it was read from what a caller gave. -/
abbrev Task (α σ : Type) := Minimize.Task (Problem α σ) (Rule α) α

/-- Reads what callers give; the first part that cannot be used decides the fault. -/
def Task.read {α σ : Type} [Numeral α] (gradient : VectorField α σ) (hessian : Tensor α σ)
    (start : Datum α) (outside : Region α σ) (options : Options α σ)
    (preconditioner : Option (Tensor α σ)) : Except Fault (Task α σ) :=
  Minimize.Task.setUp options.settings start
    (fun settings n => .posed n gradient hessian outside preconditioner settings.stop)
    Settings.rule Settings.maxIterations

end Newton

open Newton in
/-- Minimizes a function with the given gradient and second derivative, for data as callers give
them. -/
def minimizeNewton {α σ : Type} [Numeral α] (gradient : VectorField α σ) (hessian : Tensor α σ)
    (start : Datum α) (outside : Region α σ) (options : Options α σ)
    (preconditioner : Option (Tensor α σ)) : Run α σ (Array α) := do
  let task ← Run.ofExcept (Task.read gradient hessian start outside options preconditioner)
  let report ← solve task.problem task.rule task.budget task.start
  Run.debug .newton fun _ => report.line
  return report.point.toArray

end Descent
