import Mathlib.Analysis.Convex.Deriv
import Mathlib.Analysis.InnerProductSpace.Calculus
import Descent.Proofs.Barrier.Derivative

/-!
# The curvature of the logarithmic barrier

The second derivative of the logarithmic barrier is a sum over the constraints `cᵢ`: the outer
product of the gradient with itself over the squared value, less the second derivative over the
value. Where all constraints are strictly satisfied both parts curve upwards if the constraints do.

* `Family.inner_logHessian`: the quadratic form, constraint by constraint;
* `Family.isLinearMap_logHessian`, `Family.inner_logHessian_comm`, `Family.inner_logHessian_nonneg`:
  it is linear, symmetric and positive semidefinite if the second derivatives of the constraints
  are;
* `inner_nonneg_of_convexOn`: those of a convex constraint are.
-/

open scoped InnerProductSpace

namespace Descent

/-- The second derivative of a convex function is nowhere negative: along every line the slope of
the function grows. -/
theorem inner_nonneg_of_convexOn {n : Nat} {c : Vec ℝ n → ℝ} {dc : Vec ℝ n → Vec ℝ n}
    {x v image : Vec ℝ n} (hconvex : ConvexOn ℝ Set.univ c)
    (hc : ∀ y, HasLineDerivAt ℝ c (Vec.dot (dc y) v) y v) (hdc : HasLineDerivAt ℝ dc image x v) :
    0 ≤ ⟪v, image⟫_ℝ := by
  have hline : ConvexOn ℝ Set.univ fun ε : ℝ => c (x + ε • v) := by
    have hcomp := hconvex.comp_affineMap (AffineMap.lineMap x (x + v))
    rw [Set.preimage_univ] at hcomp
    refine hcomp.congr fun ε _ => ?_
    simp [AffineMap.lineMap_apply, add_comm]
  have hslope (ε : ℝ) : HasDerivAt (fun ε : ℝ => c (x + ε • v)) (Vec.dot (dc (x + ε • v)) v) ε := by
    have hshift : HasDerivAt (fun δ : ℝ => c (x + ε • v + (δ - ε) • v))
        (Vec.dot (dc (x + ε • v)) v) ε := by
      have hat : HasDerivAt (fun δ : ℝ => c (x + ε • v + δ • v)) (Vec.dot (dc (x + ε • v)) v)
          (ε - ε) := by
        rw [sub_self]
        exact hc (x + ε • v)
      simpa using hat.comp_sub_const ε ε
    refine hshift.congr_of_eventuallyEq (.of_forall fun δ => ?_)
    change c (x + δ • v) = c (x + ε • v + (δ - ε) • v)
    rw [add_assoc, ← add_smul, add_sub_cancel]
  have hmonotone : Monotone fun ε : ℝ => Vec.dot (dc (x + ε • v)) v := by
    have hderiv : deriv (fun ε : ℝ => c (x + ε • v)) = fun ε => Vec.dot (dc (x + ε • v)) v :=
      funext fun ε => (hslope ε).deriv
    have hgrows := hline.monotoneOn_deriv fun ε _ => (hslope ε).differentiableAt
    rwa [hderiv, monotoneOn_univ] at hgrows
  have hcurve : HasDerivAt (fun ε : ℝ => Vec.dot (dc (x + ε • v)) v) ⟪v, image⟫_ℝ 0 := by
    have hgradient : HasDerivAt (fun ε : ℝ => dc (x + ε • v)) image 0 := hdc
    refine (hgradient.inner ℝ (hasDerivAt_const (0 : ℝ) v)).congr_deriv ?_
    rw [inner_zero_right, zero_add, real_inner_comm]
  rw [← hcurve.deriv]
  exact hmonotone.deriv_nonneg

/-- A second derivative that is linear, symmetric and positive semidefinite, as that of a convex
function is. -/
structure CurvesUp {n : Nat} (image : Vec ℝ n → Vec ℝ n) : Prop where
  linear : IsLinearMap ℝ image
  symmetric : ∀ u v, ⟪u, image v⟫_ℝ = ⟪image u, v⟫_ℝ
  nonneg : ∀ v, 0 ≤ ⟪v, image v⟫_ℝ

namespace Family

variable {σ : Type} {n : Nat} {f : Family ℝ σ} {c : Nat → Vec ℝ n → ℝ}
  {dc : Nat → Vec ℝ n → Vec ℝ n} {d2c : Nat → Vec ℝ n → Vec ℝ n → Vec ℝ n} {x : Vec ℝ n}

/-- **The quadratic form of the barrier.** Each constraint contributes the product of its slopes
along the two vectors over its squared value, less its own form over its value. -/
theorem inner_logHessian (hx : ∀ i < f.count, c i x ≠ 0) (u v : Vec ℝ n) :
    ⟪u, f.logHessian c dc d2c x v⟫_ℝ = ∑ i : Fin f.count,
      (⟪dc i x, u⟫_ℝ * ⟪dc i x, v⟫_ℝ / c i x ^ 2 - ⟪u, d2c i x v⟫_ℝ / c i x) := by
  rw [logHessian, inner_sum]
  refine Finset.sum_congr rfl fun i _ => ?_
  have hne : c i x ≠ 0 := hx i i.isLt
  rw [inner_add_right, real_inner_smul_right, real_inner_smul_right, Vec.dot_eq_inner,
    real_inner_comm u]
  field_simp
  ring

/-- It is linear if the second derivatives of the constraints are. -/
theorem isLinearMap_logHessian (h : ∀ i < f.count, IsLinearMap ℝ (d2c i x)) :
    IsLinearMap ℝ (f.logHessian c dc d2c x) where
  map_add u v := by
    rw [logHessian, logHessian, logHessian, ← Finset.sum_add_distrib]
    refine Finset.sum_congr rfl fun i _ => ?_
    rw [(h i i.isLt).map_add, Vec.dot_eq_inner, Vec.dot_eq_inner, Vec.dot_eq_inner,
      inner_add_right, add_div]
    module
  map_smul a v := by
    rw [logHessian, logHessian, Finset.smul_sum]
    refine Finset.sum_congr rfl fun i _ => ?_
    rw [(h i i.isLt).map_smul, Vec.dot_eq_inner, Vec.dot_eq_inner, real_inner_smul_right,
      mul_div_assoc]
    module

/-- It is symmetric if the second derivatives of the constraints are. -/
theorem inner_logHessian_comm (hx : ∀ i < f.count, c i x ≠ 0)
    (h : ∀ i < f.count, ∀ u v, ⟪u, d2c i x v⟫_ℝ = ⟪d2c i x u, v⟫_ℝ) (u v : Vec ℝ n) :
    ⟪u, f.logHessian c dc d2c x v⟫_ℝ = ⟪f.logHessian c dc d2c x u, v⟫_ℝ := by
  rw [real_inner_comm v (f.logHessian c dc d2c x u), inner_logHessian hx, inner_logHessian hx]
  refine Finset.sum_congr rfl fun i _ => ?_
  rw [h i i.isLt, real_inner_comm v (d2c i x u), mul_comm]

/-- Where all constraints are strictly satisfied it is positive semidefinite if the second
derivatives of the constraints are. -/
theorem inner_logHessian_nonneg (hx : ∀ i < f.count, c i x < 0)
    (h : ∀ i < f.count, ∀ v, 0 ≤ ⟪v, d2c i x v⟫_ℝ) (v : Vec ℝ n) :
    0 ≤ ⟪v, f.logHessian c dc d2c x v⟫_ℝ := by
  rw [inner_logHessian fun i hi => (hx i hi).ne]
  refine Finset.sum_nonneg fun i _ => ?_
  have hslopes : 0 ≤ ⟪dc i x, v⟫_ℝ * ⟪dc i x, v⟫_ℝ / c i x ^ 2 :=
    div_nonneg (mul_self_nonneg _) (sq_nonneg _)
  have hcurvature : ⟪v, d2c i x v⟫_ℝ / c i x ≤ 0 :=
    div_nonpos_of_nonneg_of_nonpos (h i i.isLt v) (hx i i.isLt).le
  exact sub_nonneg.2 (hcurvature.trans hslopes)

/-- The barrier curves upwards if all its constraints do. -/
theorem curvesUp_logHessian (hx : ∀ i < f.count, c i x < 0)
    (h : ∀ i < f.count, CurvesUp (d2c i x)) : CurvesUp (f.logHessian c dc d2c x) where
  linear := isLinearMap_logHessian fun i hi => (h i hi).linear
  symmetric := inner_logHessian_comm (fun i hi => (hx i hi).ne) fun i hi => (h i hi).symmetric
  nonneg := inner_logHessian_nonneg hx fun i hi => (h i hi).nonneg

end Family

end Descent
