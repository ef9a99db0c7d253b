import Descent.Operator.Interpret

/-!
# Barriers

A barrier is a function that grows without bound towards the edge of the feasible region. Two forms
are known: the logarithmic barrier `φ x = -∑ log (-c i x)` of a family of constraints `c i x ≤ 0`,
and a barrier that the caller gives in closed form.

* `Family`: the constraints with their derivatives, by index; `Family.ofConstraints` collects single
  constraints.
* `ClosedForm`: the parts of a barrier as functions.
* `Barrier` with `value`, `gradient`, `hessian`, `multipliers`, `outside`: what the methods ask of
  either form.
-/

namespace Descent

/-- A single constraint `value x ≤ 0` with its derivatives. -/
structure Constraint (α σ : Type) where
  value : ScalarField α σ
  gradient : VectorField α σ
  hessian : Option (Tensor α σ) := none
  hessianDiagonal : Option (VectorField α σ) := none

/-- Constraints by index, all with second derivatives or none. -/
structure Family (α σ : Type) where
  count : Nat
  value : Nat → ScalarField α σ
  gradient : Nat → VectorField α σ
  hessian : Option (Nat → Tensor α σ)
  hessianDiagonal : Option (Nat → VectorField α σ)

/-- A barrier in closed form. -/
structure ClosedForm (α σ : Type) where
  value : ScalarField α σ
  gradient : VectorField α σ
  /-- The multipliers at a scale and a point, one for each constraint. -/
  multipliers : α → VectorField α σ
  outside : Region α σ
  hessian : Option (Tensor α σ)

/-- The barrier of an interior-point method. -/
inductive Barrier (α σ : Type) where
  | family (f : Family α σ)
  | closedForm (c : ClosedForm α σ)

namespace Family

variable {α σ : Type}

/-- A family from its parts. The number of constraints counts without its fraction and must not be
negative. -/
def ofIndexed [Numeral α] (count : Number α) (value : Nat → ScalarField α σ)
    (gradient : Nat → VectorField α σ) (hessian : Option (Nat → Tensor α σ))
    (hessianDiagonal : Option (Nat → VectorField α σ)) : Except Fault (Family α σ) := do
  let count ← count.insist "count" .nonNegative
  return ⟨(← count.truncate).toNat, value, gradient, hessian, hessianDiagonal⟩

/-- What all items have, if they all have it; if only some have it, that is a fault. -/
def commonPart {β γ : Type} (what : String) (part : β → Option γ) (items : Array β) :
    Except Fault (Option (Array γ)) :=
  let parts := items.filterMap part
  if parts.isEmpty then .ok none
  else if parts.size = items.size then .ok (some parts)
  else .error (.partialDerivative what)

/-- The family of a sequence of constraints. -/
def ofConstraints (items : Array (Constraint α σ)) : Except Fault (Family α σ) := do
  let hessians ← commonPart "Hessian" Constraint.hessian items
  let diagonals ← commonPart "Hessian diagonal" Constraint.hessianDiagonal items
  let absent : VectorField α σ := fun _ => throw .notApplicable
  return {
    count := items.size
    value := fun i => (items[i]?.map Constraint.value).getD fun _ => throw .notApplicable
    gradient := fun i => (items[i]?.map Constraint.gradient).getD absent
    hessian := hessians.map fun parts i =>
      parts.getD i (.varying fun _ => throw .notApplicable)
    hessianDiagonal := diagonals.map fun parts i => parts.getD i absent }

/-- The value of each constraint. -/
def values {n : Nat} (f : Family α σ) (x : Vec α n) : Run α σ (Vec α f.count) :=
  Vector.ofFnM fun i => f.value i x.toArray

variable [Numeral α] {n : Nat}

/-- The gradient of each constraint, one below the other. -/
def gradients (f : Family α σ) (x : Vec α n) : Run α σ (Mat α f.count n) :=
  Vector.ofFnM fun i => (f.gradient i).valueAt "constraint gradient" x

/-- How far each constraint is from being violated. -/
def slack (f : Family α σ) (x : Vec α n) : Run α σ (Vec α f.count) :=
  return -(← f.values x)

/-- The logarithmic barrier. -/
def barrierValue (f : Family α σ) (x : Vec α n) : Run α σ α := do
  let slack ← f.slack x
  return -((slack.map Scalar.log).foldl (· + ·) 0)

/-- The gradient of the logarithmic barrier. -/
def barrierGradient (f : Family α σ) (x : Vec α n) : Run α σ (Vec α n) := do
  let slack ← f.slack x
  let jacobian ← f.gradients x
  return Mat.applyTransposed jacobian (slack.map (1 / ·))

/-- The second derivatives of the constraints at a point; none for linear constraints. -/
def curvatures (f : Family α σ) (x : Vec α n) : Run α σ (List (Operator α σ)) :=
  match f.hessian with
  | none => return []
  | some hessian => (List.range f.count).mapM fun i => (hessian i).operatorAt x

/-- The contributions of the curvatures of the constraints, added one after the other. -/
def addCurvature (v : Vec α n) : Vec α n → List (α × Operator α σ) → Run α σ (Vec α n)
  | sum, [] => return sum
  | sum, (s, op) :: rest => do
    let image ← op.apply v
    addCurvature v (sum + Vec.divideBy image s) rest

/-- The second derivative of the logarithmic barrier, applied to a vector. -/
def applyHessian {m : Nat} (slack : Vec α m) (jacobian : Mat α m n)
    (curvatures : List (Operator α σ)) (v : Vec α n) : Run α σ (Vec α n) :=
  let weights := Vec.divide (Mat.apply jacobian v) (Vec.times slack slack)
  addCurvature v (Mat.applyTransposed jacobian weights) (slack.toList.zip curvatures)

/-- The second derivative of the logarithmic barrier. -/
def barrierHessian (f : Family α σ) (x : Vec α n) : Run α σ (Operator α σ) := do
  let slack ← f.slack x
  let jacobian ← f.gradients x
  let curvatures ← f.curvatures x
  let map : VectorField α σ := fun v =>
    if h : v.size = n then do
      let image ← applyHessian slack jacobian curvatures ⟨v, h⟩
      return .vector image.toArray
    else throw .unequal
  return .function map (some n)

/-- Estimates of the multipliers at scale `t`. -/
def multipliers (f : Family α σ) (t : α) (x : Vec α n) : Run α σ (Array α) := do
  let values ← f.values x
  return (values.map fun c => -1 / (t * c)).toArray

/-- Whether some constraint from index `i` on is not strictly satisfied; the first one ends the
questions. -/
def violatedFrom (f : Family α σ) (x : Vec α n) : (left i : Nat) → Run α σ Bool
  | 0, _ => return false
  | left + 1, i => do
    let c ← f.value i x.toArray
    if 0 ≤ c then return true else violatedFrom f x left (i + 1)

/-- Whether the logarithmic barrier is undefined at a point. -/
def outside (f : Family α σ) (x : Vec α n) : Run α σ Bool :=
  f.violatedFrom x f.count 0

end Family

namespace Barrier

variable {α σ : Type}

/-- Whether second derivatives are available. -/
def hasHessian : Barrier α σ → Bool
  | family _ => true
  | closedForm c => c.hessian.isSome

variable [Numeral α] {n : Nat}

/-- The value of the barrier. -/
def value (barrier : Barrier α σ) (x : Vec α n) : Run α σ α :=
  match barrier with
  | family f => f.barrierValue x
  | closedForm c => c.value x.toArray

/-- The gradient of the barrier. -/
def gradient (barrier : Barrier α σ) (x : Vec α n) : Run α σ (Vec α n) :=
  match barrier with
  | family f => f.barrierGradient x
  | closedForm c => c.gradient.valueAt "barrier gradient" x

/-- The second derivative of the barrier. -/
def hessian (barrier : Barrier α σ) (x : Vec α n) : Run α σ (Operator α σ) :=
  match barrier with
  | family f => f.barrierHessian x
  | closedForm c =>
    match c.hessian with
    | some tensor => tensor.operatorAt x
    | none => throw .hessianMissing

/-- Estimates of the multipliers at scale `t`, one for each constraint. -/
def multipliers (barrier : Barrier α σ) (t : α) (x : Vec α n) : Run α σ (Array α) :=
  match barrier with
  | family f => f.multipliers t x
  | closedForm c => do Run.ofExcept ((← c.multipliers t x.toArray).toVector "multipliers")

/-- Whether the barrier is undefined at a point. -/
def outside (barrier : Barrier α σ) (x : Vec α n) : Run α σ Bool :=
  match barrier with
  | family f => f.outside x
  | closedForm c => c.outside x.toArray

end Barrier

end Descent
