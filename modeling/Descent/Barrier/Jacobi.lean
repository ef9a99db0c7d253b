import Descent.Barrier

/-!
# Jacobi preconditioners

The Hessian of `t f + φ`, with `φ` the logarithmic barrier of a family, has the diagonal

    t * diag f'' + ∑ i, (dc i ^ 2 / c i ^ 2 - diag c'' i / c i)

and a preconditioner is its entrywise inverse. It depends on the scale and on the point.

* `Jacobi.barrierDiagonal` computes the sum;
* `Jacobi.inverse` inverts a diagonal, with 1 in the place of what is not positive and finite;
* `Jacobi.tensor` is the preconditioner at a scale, `Jacobi.preconditioner` the one for all scales.
-/

namespace Descent

namespace Jacobi

/-- The parts of a family that the diagonal is made of. -/
structure Parts (α σ : Type) where
  value : Nat → ScalarField α σ
  gradient : Nat → VectorField α σ
  hessianDiagonal : Option (Nat → VectorField α σ)

/-- The parts of a family of constraints. -/
def Parts.ofFamily {α σ : Type} (f : Family α σ) : Parts α σ :=
  ⟨f.value, f.gradient, f.hessianDiagonal⟩

variable {α σ : Type} [Numeral α] {n : Nat}

/-- The diagonal with the contributions of the next `left` constraints, from index `i` on. -/
def addConstraints (parts : Parts α σ) (x : Vec α n) :
    (left i : Nat) → Vec α n → Run α σ (Vec α n)
  | 0, _, sum => return sum
  | left + 1, i, sum => do
    let c ← parts.value i x.toArray
    let g ← (parts.gradient i).valueAt "constraint gradient" x
    let sum := sum + Vec.divideBy (Vec.times g g) (c * c)
    match parts.hessianDiagonal with
    | none => addConstraints parts x left (i + 1) sum
    | some diagonal => do
      let d ← (diagonal i).valueAt "constraint Hessian diagonal" x
      addConstraints parts x left (i + 1) (sum - Vec.divideBy d c)

/-- The diagonal of the Hessian of the logarithmic barrier. -/
def barrierDiagonal (parts : Parts α σ) (count : Nat) (x : Vec α n) : Run α σ (Vec α n) :=
  addConstraints parts x count 0 (Vec.zeros n)

/-- The inverse of an entry; 1 for an entry that is not positive and finite. -/
def inverseEntry (d : α) : α :=
  if Scalar.isFinite d && decide (0 < d) then 1 / d else 1

/-- The diagonal operator of the inverse entries. -/
def inverse (diagonal : Array α) : Operator α σ :=
  .diagonal (diagonal.map inverseEntry)

/-- The inverse diagonal of the Hessian of `t f + φ` at a point. -/
def operatorAt (parts : Parts α σ) (count : Number α) (objective : VectorField α σ) (t : α)
    (x : Vec α n) : Run α σ (Operator α σ) := do
  let d ← objective.valueAt "Hessian diagonal" x
  let b ← barrierDiagonal parts (← Run.ofExcept count.toCount) x
  return inverse (t * d + b).toArray

/-- The preconditioner at scale `t`, as a tensor. -/
def tensor (parts : Parts α σ) (count : Number α) (objective : VectorField α σ) (t : α) :
    Tensor α σ :=
  .varying fun x => return .operator (← operatorAt parts count objective t (Vec.ofArray x))

/-- The preconditioner for all scales; the number of constraints must not be negative. -/
def preconditioner (parts : Parts α σ) (count : Number α) (objective : VectorField α σ) :
    Except Fault (α → Tensor α σ) := do
  return tensor parts (← count.insist "constraints_count" .nonNegative) objective

end Jacobi

namespace Family

variable {α σ : Type} [Numeral α] {n : Nat}

/-- The diagonal of the Hessian of the logarithmic barrier of a family. -/
def barrierDiagonal (f : Family α σ) (x : Vec α n) : Run α σ (Vec α n) :=
  Jacobi.barrierDiagonal (Jacobi.Parts.ofFamily f) f.count x

/-- The Jacobi preconditioner of a family for an objective with the given second derivatives on the
diagonal. -/
def jacobi (f : Family α σ) (objective : VectorField α σ) (t : α) : Tensor α σ :=
  Jacobi.tensor (Jacobi.Parts.ofFamily f) (.whole f.count) objective t

end Family

end Descent
