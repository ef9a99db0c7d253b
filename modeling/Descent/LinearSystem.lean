import Descent.Operator.Interpret
import Descent.Scalar.Quotient

/-!
# Linear systems by conjugate gradients

`A x = b` for a symmetric operator `A`, solved by conjugate gradients, preconditioned if an operator
close to the inverse of `A` is given. The operator need not be positive definite: a direction of
non-positive curvature ends the solve at the point reached.

* `LinearSystem.step` is one iteration, a function of the `State` alone;
* `LinearSystem.iterate` repeats it within a budget;
* `LinearSystem.solve` starts from a guess and reports the point, its residual, the number of
  completed iterations and why the solve ended;
* `LinearSystem.run` also writes the report as a debug line;
* `LinearSystem.Task.read` reads data as callers give them, and `solveLinear` solves what was read.
-/

namespace Descent

/-- A linear map between vectors of one length, as a run. -/
abbrev LinearMap (α σ : Type) (n : Nat) := Vec α n → Run α σ (Vec α n)

namespace LinearSystem

/-- The system matrix and the preconditioner, each known by its action. -/
structure System (α σ : Type) (n : Nat) where
  apply : LinearMap α σ n
  precondition : Option (LinearMap α σ n)

/-- The iterate, its residual, the direction to search along, and the product of the residual with
the preconditioned residual. -/
structure State (α : Type) (n : Nat) where
  point : Vec α n
  residual : Vec α n
  direction : Vec α n
  product : α

/-- Why a solve ends. -/
inductive Exit where
  /-- The guess already met the tolerance, or there are no unknowns. -/
  | atStart
  | budget
  | curvature
  | tolerance
  | preconditioner
  deriving DecidableEq, Repr

/-- The wording of each way to end. -/
def Exit.text : Exit → String
  | .atStart => "nothing to do"
  | .budget => "maximum iterations reached"
  | .curvature => "non-positive curvature"
  | .tolerance => "residual tolerance satisfied"
  | .preconditioner => "non-positive preconditioned residual"

/-- What a solve returns. -/
structure Report (α : Type) (n : Nat) where
  point : Vec α n
  residual : Vec α n
  iterations : Nat
  exit : Exit

/-- What one iteration leads to. -/
inductive Step (α : Type) (n : Nat) where
  /-- The direction cannot be used; nothing has moved. -/
  | refused
  /-- The point has moved and the solve ends there. -/
  | last (exit : Exit) (point residual : Vec α n)
  /-- The point has moved and there is a new direction. -/
  | next (state : State α n)

section

variable {α σ : Type} {n : Nat} [Scalar α]

/-- The preconditioned residual; the residual itself without a preconditioner. -/
def System.smooth (system : System α σ n) (r : Vec α n) : Run α σ (Vec α n) :=
  match system.precondition with
  | some apply => apply r
  | none => pure r

/-- One iteration: move along the direction to the minimum of the quadratic, then make the next
direction conjugate to this one. -/
def step (system : System α σ n) (tolerance : α) (s : State α n) : Run α σ (Step α n) := do
  let image ← system.apply s.direction
  let curvature := Vec.dot s.direction image
  if curvature ≤ 0 || !Scalar.isFinite curvature then return .refused
  let length := s.product / curvature
  let point := Vec.along s.point length s.direction
  let residual := s.residual - length * image
  if Vec.norm residual < tolerance then return .last .tolerance point residual
  let smoothed ← system.smooth residual
  let product := Vec.dot residual smoothed
  if product ≤ 0 then return .last .preconditioner point residual
  let beta ← Run.ofExcept (Scalar.quotient product s.product)
  return .next ⟨point, residual, Vec.along smoothed beta s.direction, product⟩

/-- At most `budget` iterations after `completed` ones. -/
def iterate (system : System α σ n) (tolerance : α) :
    (budget completed : Nat) → State α n → Run α σ (Report α n)
  | 0, completed, s => return ⟨s.point, s.residual, completed, .budget⟩
  | budget + 1, completed, s => do
    match ← step system tolerance s with
    | .refused => return ⟨s.point, s.residual, completed, .curvature⟩
    | .last exit point residual => return ⟨point, residual, completed + 1, exit⟩
    | .next s => iterate system tolerance budget (completed + 1) s

/-- Solves the system for a right-hand side `b` from a guess. -/
def solve (system : System α σ n) (b guess : Vec α n) (tolerance : α) (budget : Nat) :
    Run α σ (Report α n) := do
  let image ← system.apply guess
  let residual := b - image
  if Vec.norm residual < tolerance || n = 0 then return ⟨guess, residual, 0, .atStart⟩
  let smoothed ← system.smooth residual
  iterate system tolerance budget 0 ⟨guess, residual, smoothed, Vec.dot residual smoothed⟩

end

section

variable {α σ : Type} {n : Nat} [Numeral α]

/-- The line that sums up a solve. -/
def Report.line (report : Report α n) : String :=
  "CG stopped after " ++ report.iterations.repr ++ " iterations (" ++ report.exit.text ++
    "), residual " ++ Numeral.scientific 3 (Vec.norm report.residual)

/-- Solves the system and writes the line, unless there was nothing to do. -/
def run (system : System α σ n) (b guess : Vec α n) (tolerance : α) (budget : Nat) :
    Run α σ (Report α n) := do
  let report ← solve system b guess tolerance budget
  if report.exit ≠ .atStart then Run.debug .linearSystem fun _ => report.line
  return report

end

/-- What callers can set. -/
structure Options (α : Type) [Scalar α] where
  /-- The bound on the norm of the residual. -/
  tolerance : Datum α := .number (.real 1e-10)
  /-- The budget; when it is missing it is twice the number of unknowns. -/
  maxIterations : Datum α := .nothing

/-- A system as it was read from what a caller gave. -/
structure Task (α σ : Type) where
  unknowns : Nat
  system : System α σ unknowns
  rhs : Vec α unknowns
  guess : Vec α unknowns
  tolerance : α
  budget : Nat

/-- The guess as a vector of the length of the right-hand side; a missing one is zero. -/
def readGuess {α : Type} [Numeral α] (n : Nat) (guess : Datum α) : Except Fault (Vec α n) :=
  match guess.given? with
  | none => .ok (Vec.zeros n)
  | some guess => do
    let start ← guess.toVector "x0"
    if h : start.size = n then return ⟨start, h⟩ else throw (.lengths "b" n "x0" start.size)

/-- Reads what callers give; the first part that cannot be used decides the fault. The budget given
with the call comes before the one of the options. -/
def Task.read {α σ : Type} [Numeral α] (A : OperatorLike α σ) (b guess : Datum α)
    (options : Options α) (maxIterations : Datum α)
    (preconditioner : Option (OperatorLike α σ)) : Except Fault (Task α σ) := do
  let tolerance ← options.tolerance.insist "tolerance" .nonNegative
  let op ← A.toOperator
  let smoother ← preconditioner.mapM OperatorLike.toOperator
  let b ← b.toVector "b"
  let guess ← readGuess b.size guess
  let budget := (maxIterations.given? <|> options.maxIterations.given?).getD
    (.number (.whole (2 * b.size)))
  let budget ← budget.insist "max_iterations" .nonNegative
  return {
    unknowns := b.size
    system := ⟨op.apply, smoother.map fun op => op.apply⟩
    rhs := Vec.ofArray b
    guess
    tolerance := tolerance.ceiling
    budget := budget.roundsBelow }

end LinearSystem

open LinearSystem in
/-- Solves `A x = b` for data as callers give them. -/
def solveLinear {α σ : Type} [Numeral α] (A : OperatorLike α σ) (b guess : Datum α)
    (options : Options α) (maxIterations : Datum α) (preconditioner : Option (OperatorLike α σ)) :
    Run α σ (Array α) := do
  let task ← Run.ofExcept (Task.read A b guess options maxIterations preconditioner)
  let report ← run task.system task.rhs task.guess task.tolerance task.budget
  return report.point.toArray

end Descent
