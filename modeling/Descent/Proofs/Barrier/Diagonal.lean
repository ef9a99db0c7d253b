import Descent.Proofs.Barrier.Derivative
import Descent.Barrier.Jacobi

/-!
# The diagonal of the logarithmic barrier

The diagonal of the second derivative of the barrier is computed without the operator, by a loop
over the constraints that adds up squares of gradients and subtracts diagonals. Over the reals it is
the diagonal of the operator, provided that the diagonals of the constraints are those of their
second derivatives.

* `Vec.diagonalOf`: the diagonal of a map, and what it is of sums and multiples.
* `Family.DiagonalAt`: what a family returns as diagonals at a point.
* `Family.barrierDiagonal_yields`: the loop finds the diagonal of `Family.logHessian`.
-/

namespace Descent

/-! ## Diagonals of maps -/

namespace Vec

variable {n : Nat}

/-- The vector with a one at an index and zeros elsewhere. -/
noncomputable def unit (j : Fin n) : Vec ℝ n :=
  Vector.ofFn fun i => if i = j then 1 else 0

/-- The diagonal of a map: entry `j` of the image of the unit vector `j`. -/
noncomputable def diagonalOf (A : Vec ℝ n → Vec ℝ n) : Vec ℝ n :=
  Vector.ofFn fun j => entry (A (unit j)) j

variable {A B : Vec ℝ n → Vec ℝ n}

theorem entry_diagonalOf (A : Vec ℝ n → Vec ℝ n) (j : Fin n) :
    entry (diagonalOf A) j = entry (A (unit j)) j := by
  simp [diagonalOf, entry]

theorem dot_unit (u : Vec ℝ n) (j : Fin n) : dot u (unit j) = entry u j := by
  rw [dot_eq_sum, Finset.sum_eq_single j]
  · simp [unit, entry]
  · intro i _ hne
    simp [unit, hne]
  · simp

theorem diagonalOf_add : diagonalOf (fun v => A v + B v) = diagonalOf A + diagonalOf B := by
  ext j hj
  simp [diagonalOf, entry]

theorem diagonalOf_smul (c : ℝ) : diagonalOf (fun v => c • A v) = c • diagonalOf A := by
  ext j hj
  simp only [← hmul_eq_smul, diagonalOf, entry]
  simp

theorem diagonalOf_sum {m : Nat} (A : Fin m → Vec ℝ n → Vec ℝ n) :
    diagonalOf (fun v => ∑ i, A i v) = ∑ i, diagonalOf (A i) := by
  induction m with
  | zero =>
    ext j hj
    simp [diagonalOf, entry]
  | succ m ih =>
    simp only [Fin.sum_univ_succ, diagonalOf_add, ih]

/-- The diagonal of a product of two vectors. -/
theorem diagonalOf_outer (u w : Vec ℝ n) : diagonalOf (fun v => dot u v • w) = times u w := by
  ext j hj
  simp only [← hmul_eq_smul, diagonalOf, dot_unit, entry]
  simp [times]

end Vec

/-! ## What the barrier computes -/

namespace Family

variable {σ : Type} {n : Nat} {I : Invariant ℝ σ} {f : Family ℝ σ} {c : Nat → Vec ℝ n → ℝ}
  {dc : Nat → Vec ℝ n → Vec ℝ n} {d2c : Nat → Vec ℝ n → Vec ℝ n → Vec ℝ n} {x : Vec ℝ n}

/-- What a constraint adds to the diagonal: the squares of its gradient over the square of its
value, less the diagonal of its second derivative over its value. -/
noncomputable def diagonalTerm (c : Nat → Vec ℝ n → ℝ) (dc : Nat → Vec ℝ n → Vec ℝ n)
    (d2c : Nat → Vec ℝ n → Vec ℝ n → Vec ℝ n) (x : Vec ℝ n) (i : Nat) : Vec ℝ n :=
  Vec.divideBy (Vec.times (dc i x) (dc i x)) (c i x * c i x) -
    Vec.divideBy (Vec.diagonalOf (d2c i x)) (c i x)

/-- The operator divides by the slack where the diagonal divides by the value of the constraint. -/
theorem diagonalOf_logHessian (f : Family ℝ σ) (c : Nat → Vec ℝ n → ℝ)
    (dc : Nat → Vec ℝ n → Vec ℝ n) (d2c : Nat → Vec ℝ n → Vec ℝ n → Vec ℝ n) (x : Vec ℝ n) :
    Vec.diagonalOf (f.logHessian c dc d2c x) = ∑ i : Fin f.count, diagonalTerm c dc d2c x i := by
  unfold logHessian
  rw [Vec.diagonalOf_sum]
  refine Finset.sum_congr rfl fun i _ => ?_
  have houter (v : Vec ℝ n) : (Vec.dot (dc i x) v / (c i x * c i x)) • dc i x =
      (c i x * c i x)⁻¹ • (Vec.dot (dc i x) v • dc i x) := by
    rw [smul_smul, div_eq_inv_mul]
  simp only [houter]
  rw [Vec.diagonalOf_add, Vec.diagonalOf_smul, Vec.diagonalOf_smul, Vec.diagonalOf_outer,
    diagonalTerm, Vec.divideBy_eq_smul, Vec.divideBy_eq_smul, one_div, inv_neg, neg_smul,
    sub_eq_add_neg]

variable [RealText]

/-- What a family returns as diagonals at a point: those of the second derivatives, unless it has
neither. -/
structure DiagonalAt (I : Invariant ℝ σ) (f : Family ℝ σ)
    (d2c : Nat → Vec ℝ n → Vec ℝ n → Vec ℝ n) (x : Vec ℝ n) : Prop where
  both : f.hessianDiagonal.isSome = f.hessian.isSome
  diagonal : ∀ diagonal ∈ f.hessianDiagonal, ∀ i < f.count,
    ((diagonal i).valueAt "constraint Hessian diagonal" x).Yields I (Vec.diagonalOf (d2c i x))

/-- The loop over the constraints adds up their terms. -/
theorem addConstraints_yields (h : f.EvaluatesAt I c dc d2c x) (hdiagonal : f.DiagonalAt I d2c x)
    (left i : Nat) (hleft : i + left ≤ f.count) (sum : Vec ℝ n) :
    (Jacobi.addConstraints (.ofFamily f) x left i sum).Yields I
      (sum + ∑ k ∈ Finset.range left, diagonalTerm c dc d2c x (i + k)) := by
  induction left generalizing i sum with
  | zero =>
    rw [Finset.sum_range_zero, add_zero]
    exact .pure
  | succ left ih =>
    have hi : i < f.count := by omega
    have hsum : sum + ∑ k ∈ Finset.range (left + 1), diagonalTerm c dc d2c x (i + k) =
        (sum + diagonalTerm c dc d2c x i) +
          ∑ k ∈ Finset.range left, diagonalTerm c dc d2c x (i + 1 + k) := by
      rw [Finset.sum_range_succ', add_comm (Finset.sum _ _), ← add_assoc]
      simp only [Nat.add_zero, Nat.add_assoc, Nat.add_comm 1]
    rw [hsum]
    refine .bind (h.value i hi) (.bind (h.gradient i hi) ?_)
    cases hd : f.hessianDiagonal with
    | none =>
      have hlinear : f.hessian = none := by simpa [hd] using hdiagonal.both.symm
      have hterm : diagonalTerm c dc d2c x i =
          Vec.divideBy (Vec.times (dc i x) (dc i x)) (c i x * c i x) := by
        have hzero : Vec.diagonalOf (d2c i x) = 0 := by
          ext j hj
          simp [Vec.diagonalOf, Vec.entry, h.linear hlinear i hi]
        rw [diagonalTerm, hzero, Vec.divideBy_eq_smul 0, smul_zero, sub_zero]
      rw [hterm]
      simp only [Jacobi.Parts.ofFamily, hd]
      simpa only [Jacobi.Parts.ofFamily, hd] using ih (i + 1) (by omega) _
    | some diagonal =>
      simp only [Jacobi.Parts.ofFamily, hd]
      refine .bind (hdiagonal.diagonal diagonal hd i hi) ?_
      rw [diagonalTerm, ← add_sub_assoc]
      simpa only [Jacobi.Parts.ofFamily, hd, diagonalTerm] using ih (i + 1) (by omega) _

/-- **The loop finds the diagonal of the operator.** -/
theorem barrierDiagonal_yields (h : f.EvaluatesAt I c dc d2c x)
    (hdiagonal : f.DiagonalAt I d2c x) :
    (f.barrierDiagonal x).Yields I (Vec.diagonalOf (f.logHessian c dc d2c x)) := by
  have hloop := addConstraints_yields h hdiagonal f.count 0 (by omega) (Vec.zeros n)
  rw [show Vec.zeros n = (0 : Vec ℝ n) from rfl, zero_add] at hloop
  simp only [Nat.zero_add] at hloop
  rw [diagonalOf_logHessian, Fin.sum_univ_eq_sum_range (diagonalTerm c dc d2c x)]
  exact hloop

end Family

end Descent
