import Descent.Criterion
import Descent.Minimize.Task
import Descent.Operator.Interpret
import Descent.Ray.Search

/-!
# Minimization by nonlinear conjugate gradients

The Polak–Ribière method with restarts. With `z` the preconditioned gradient `g`, each direction
after the first is

    d = -z + beta d,   beta = max 0 (g · (z - z₀) / (g₀ · z₀))

where `g₀`, `z₀` belong to the point before. The direction starts again from `-z` when `beta` is
zero, every `restartInterval` iterations, when it does not descend, and when a search along it makes
no progress.

* `Conjugate.aim` chooses the direction of the next search;
* `Conjugate.leg` is one search, with what follows from its result;
* `Conjugate.iterate` repeats legs within a budget of accepted steps: a leg without progress is
  tried once more from `-z`, and a second one ends the run;
* `Conjugate.solve` starts from a point and returns a `Report`;
* `Conjugate.Task.read` reads data as callers give them; `minimizeConjugate` solves what was read
  and writes the report as a debug line. The objective is evaluated for that line only.
-/

namespace Descent

namespace Conjugate

/-- The problem as the method sees it, between vectors of one length. -/
structure Problem (α σ : Type) (n : Nat) where
  gradient : Vec α n → Run α σ (Vec α n)
  /-- The preconditioned gradient, given the point and the gradient. -/
  precondition : Vec α n → Vec α n → Run α σ (Vec α n)
  outside : Vec α n → Run α σ Bool
  /-- Whether to stop at a gradient after a number of iterations. -/
  stop : Vec α n → Nat → Run α σ Bool

/-- The last accepted step: its length and the slope it started with. -/
structure Previous (α : Type) where
  length : α
  slope : α

/-- The state at the head of an iteration. -/
structure State (α : Type) (n : Nat) where
  point : Vec α n
  gradient : Vec α n
  /-- The preconditioned gradient. -/
  smoothed : Vec α n
  /-- The product of the gradient and the preconditioned gradient. -/
  product : α
  direction : Vec α n
  /-- The number of accepted steps since the direction was last `-smoothed`. -/
  sinceRestart : Nat
  previous : Option (Previous α)
  iterations : Nat
  evaluations : Nat

/-- Why a run ends. -/
inductive Exit where
  | criterion
  | budget
  | noDescent
  | noProgress
  deriving DecidableEq, Repr

/-- The wording of each way to end. -/
def Exit.text : Exit → String
  | .criterion => "stopping criterion satisfied"
  | .budget => "maximum iterations reached"
  | .noDescent => "preconditioned gradient is not a descent direction"
  | .noProgress => "line search made no progress"

/-- What a run returns. -/
abbrev Report (α : Type) (n : Nat) := Minimize.Report Exit α n

/-- The parameters of the method. -/
structure Rule (α : Type) where
  /-- The relative accuracy of every search. -/
  threshold : Number α
  restartInterval : Int

/-- The factor by which a search draws back from outside the domain, and its number of rounds. -/
def shrink {α : Type} [Scalar α] : α := 0.5

def rounds : Nat := 60

/-- How a search is carried out that tries a given length first. -/
def Rule.searching {α : Type} [Numeral α] (rule : Rule α) (start : α) :
    Except Fault (Ray.Rule α) := do
  demand (!decide (start ≤ 0)) "alpha0" .positive
  return ⟨← rule.threshold.toScalar, start, shrink, rounds⟩

/-- What one search leads to. -/
inductive Leg (α : Type) (n : Nat) where
  | accepted (state : State α n)
  /-- No progress along a conjugate direction; the state has been restarted. -/
  | retry (state : State α n)
  | ended (exit : Exit) (state : State α n)

section

variable {α σ : Type} {n : Nat} [Numeral α]

/-- The report of a run that ends in a state. -/
def State.report (s : State α n) (exit : Exit) : Report α n :=
  ⟨s.point, s.gradient, s.iterations, s.evaluations, exit⟩

/-- The state with the preconditioned steepest descent as its direction. -/
def State.steepest (s : State α n) : State α n :=
  { s with direction := -s.smoothed, sinceRestart := 0 }

/-- The direction of the next search and its slope: the one of the state if it descends, else the
steepest one, none when that does not descend either. -/
def aim (s : State α n) : Option (State α n × α) :=
  let slope := Vec.dot s.gradient s.direction
  if slope < 0 then some (s, slope)
  else if -s.product < 0 then some (s.steepest, -s.product)
  else none

/-- The first length to try: the one that repeats the first-order change of the previous step.
Without a usable previous step the first trial moves at most a unit distance. -/
def startLength (previous : Option (Previous α)) (slope : α) (d : Vec α n) : α :=
  let norm := Vec.norm d
  let fallback := if norm ≤ 1 then 1 else 1 / norm
  match previous with
  | none => fallback
  | some p =>
    if p.length ≤ 0 then fallback
    else
      let length := p.length * p.slope / slope
      if !Scalar.isFinite length || length ≤ 0 then fallback else length

/-- The factor of the old direction in the new one. -/
def beta (s : State α n) (gradient smoothed : Vec α n) : α :=
  if 0 < s.product then Scalar.atLeast 0 (Vec.dot gradient (smoothed - s.smoothed) / s.product)
  else 0

/-- The state after a step of `length` to `point`, with the gradient there and its preconditioned
form. -/
def advance (rule : Rule α) (s : State α n) (previous : Previous α)
    (point gradient smoothed : Vec α n) : State α n :=
  let beta := beta s gradient smoothed
  let count := s.sinceRestart + 1
  let restart := beta == 0 || decide (rule.restartInterval ≤ count)
  { point, gradient, smoothed
    product := Vec.dot gradient smoothed
    direction := if restart then -smoothed else Vec.along (-smoothed) beta s.direction
    sinceRestart := if restart then 0 else count
    previous := some previous
    iterations := s.iterations + 1
    evaluations := s.evaluations + 1 }

/-- One search from a state. -/
def leg (problem : Problem α σ n) (rule : Rule α) (s : State α n) : Run α σ (Leg α n) := do
  match aim s with
  | none => return .ended .noDescent s
  | some (s, slope) =>
    let ray := Ray.through problem.gradient problem.outside s.point s.direction
    let manner ← Run.ofExcept (rule.searching (startLength s.previous slope s.direction))
    let found ← Ray.search ray manner (some (Vec.dot s.gradient s.direction))
    let s := { s with evaluations := s.evaluations + found.evaluations }
    let point := Vec.along s.point found.length s.direction
    if found.length == 0 || point == s.point then
      if s.sinceRestart = 0 then return .ended .noProgress s
      else return .retry { s.steepest with previous := none }
    else
      let gradient ← problem.gradient point
      let smoothed ← problem.precondition point gradient
      return .accepted (advance rule s ⟨found.length, slope⟩ point gradient smoothed)

/-- Legs until the criterion holds, at most `budget` of them with an accepted step. -/
def iterate (problem : Problem α σ n) (rule : Rule α) :
    (budget : Nat) → State α n → Run α σ (Report α n)
  | 0, s => do
    if ← problem.stop s.gradient s.iterations then return s.report .criterion
    else return s.report .budget
  | budget + 1, s => do
    if ← problem.stop s.gradient s.iterations then return s.report .criterion
    else
      match ← leg problem rule s with
      | .accepted s => iterate problem rule budget s
      | .ended exit s => return s.report exit
      | .retry s =>
        if ← problem.stop s.gradient s.iterations then return s.report .criterion
        else
          match ← leg problem rule s with
          | .accepted s => iterate problem rule budget s
          | .ended exit s => return s.report exit
          | .retry s => return s.report .noProgress

/-- Minimizes from a starting point. -/
def solve (problem : Problem α σ n) (rule : Rule α) (budget : Nat) (start : Vec α n) :
    Run α σ (Report α n) := do
  let gradient ← problem.gradient start
  let smoothed ← problem.precondition start gradient
  iterate problem rule budget
    { point := start, gradient, smoothed
      product := Vec.dot gradient smoothed
      direction := -smoothed
      sinceRestart := 0
      previous := none
      iterations := 0
      evaluations := 1 }

end

/-- The line that sums up a run, given the value of the objective. -/
def Report.line {α : Type} {n : Nat} [Numeral α] (report : Report α n) (value : α) : String :=
  "nonlinear CG: " ++ report.exit.text ++ " after " ++ report.iterations.repr ++ " iterations (" ++
    report.evaluations.repr ++ " gradient evaluations), f=" ++ Numeral.scientific 6 value ++
    ", |g|=" ++ Numeral.scientific 3 (Vec.norm report.gradient)

/-- What callers can set. -/
structure Options (α σ : Type) [Scalar α] where
  stop : CriterionLike α σ := .criterion (.gradientNorm 1e-8)
  /-- The budget of accepted steps. -/
  maxIterations : Datum α := .number (.whole 1000)
  lineSearchThreshold : Datum α := .number (.real 1e-6)
  /-- The number of iterations between restarts; when it is missing, the number of unknowns. -/
  restartInterval : Datum α := .nothing

/-- What callers have set, within its bounds. -/
structure Settings (α σ : Type) where
  maxIterations : Number α
  lineSearchThreshold : Number α
  restartInterval : Option (Number α)
  stop : Criterion α σ

/-- Reads what callers have set; the first part that is out of its bounds decides the fault. -/
def Options.settings {α σ : Type} [Numeral α] (o : Options α σ) :
    Except Fault (Settings α σ) := do
  return {
    maxIterations := ← o.maxIterations.insist "max_iterations" .nonNegative
    lineSearchThreshold := ← o.lineSearchThreshold.insist "line_search_threshold" .positive
    restartInterval := ← o.restartInterval.given?.mapM (·.insist "restart_interval" .atLeastOne)
    stop := ← o.stop.toCriterion }

/-- The preconditioned gradient at a point, for a preconditioner as callers give it. -/
def smooth {α σ : Type} [Numeral α] {n : Nat} (preconditioner : Option (Tensor α σ))
    (x g : Vec α n) : Run α σ (Vec α n) :=
  match preconditioner with
  | none => pure g
  | some tensor => do (← tensor.operatorAt x).apply g

/-- The problem that callers pose between vectors of one length. -/
def Problem.posed {α σ : Type} [Numeral α] (n : Nat) (gradient : VectorField α σ)
    (outside : Region α σ) (preconditioner : Option (Tensor α σ)) (criterion : Criterion α σ) :
    Problem α σ n where
  gradient := gradient.valueAt "gradient"
  precondition := smooth preconditioner
  outside x := outside x.toArray
  stop g count := criterion.holds g (.whole count)

/-- The parameters of the method for a number of unknowns. -/
def Settings.rule {α σ : Type} [Numeral α] (s : Settings α σ) (unknowns : Nat) : Rule α where
  threshold := s.lineSearchThreshold
  restartInterval := (s.restartInterval.map Number.roundsUntil).getD (max unknowns 1)

/-- A minimization as it was read from what a caller gave. -/
abbrev Task (α σ : Type) := Minimize.Task (Problem α σ) (Rule α) α

/-- Reads what callers give; the first part that cannot be used decides the fault. -/
def Task.read {α σ : Type} [Numeral α] (gradient : VectorField α σ) (start : Datum α)
    (options : Options α σ) (outside : Region α σ) (preconditioner : Option (Tensor α σ)) :
    Except Fault (Task α σ) :=
  Minimize.Task.setUp options.settings start
    (fun settings n => .posed n gradient outside preconditioner settings.stop)
    Settings.rule Settings.maxIterations

end Conjugate

open Conjugate in
/-- Minimizes a function with the given gradient, for data as callers give them. The value of the
function, when it is known, only enters the debug line. -/
def minimizeConjugate {α σ : Type} [Numeral α] (value : Option (ScalarField α σ))
    (gradient : VectorField α σ) (start : Datum α) (options : Options α σ) (outside : Region α σ)
    (preconditioner : Option (Tensor α σ)) : Run α σ (Array α) := do
  let task ← Run.ofExcept (Task.read gradient start options outside preconditioner)
  let report ← solve task.problem task.rule task.budget task.start
  if ← Run.debugEnabled .conjugate then
    let value ← match value with
      | some f => f report.point.toArray
      | none => pure Numeral.missing
    Run.debug .conjugate fun _ => report.line value
  return report.point.toArray

end Descent
