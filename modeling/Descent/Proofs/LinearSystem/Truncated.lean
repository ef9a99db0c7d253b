import Descent.Proofs.LinearSystem.Krylov

/-!
# Truncated solves

A solve of `T step = -g` that starts from zero may end at any of its iterations, and neither the
system nor the preconditioner has to be definite. The point it returns was reached along directions
of positive curvature, and its residual is orthogonal to them. That leaves two possibilities: the
point is zero, or it is a direction in which the quadratic with gradient `g` descends.

* `LinearSystem.Truncated`: what such a point satisfies;
* `LinearSystem.Truncated.slope_neg_iff`, `LinearSystem.Truncated.descends`: it descends exactly
  when it is not zero;
* `LinearSystem.Course.Traced.truncated`: every record of a solve from zero ends at such a point.
-/

open scoped InnerProductSpace

namespace Descent.LinearSystem

variable {n : Nat} {T M : Vec ℝ n →ₗ[ℝ] Vec ℝ n} {g step : Vec ℝ n} {tolerance : ℝ} {budget : Nat}

/-- A step at whose end the slope along it has vanished, with positive curvature along it unless it
is zero. -/
structure Truncated (T : Vec ℝ n →ₗ[ℝ] Vec ℝ n) (g step : Vec ℝ n) : Prop where
  slope_end : ⟪g + T step, step⟫_ℝ = 0
  curvature_pos : step ≠ 0 → 0 < ⟪step, T step⟫_ℝ

/-- A direction of descent with positive curvature, or zero. -/
structure Descends (T : Vec ℝ n →ₗ[ℝ] Vec ℝ n) (g step : Vec ℝ n) : Prop where
  slope : ⟪g, step⟫_ℝ < 0 ∨ step = 0
  curvature : step ≠ 0 → 0 < ⟪step, T step⟫_ℝ

namespace Truncated

/-- The slope at the start is minus the curvature. -/
theorem slope_eq (h : Truncated T g step) : ⟪g, step⟫_ℝ = -⟪step, T step⟫_ℝ := by
  have hend := h.slope_end
  rw [inner_add_left, real_inner_comm step (T step)] at hend
  linarith

theorem slope_neg_iff (h : Truncated T g step) : ⟪g, step⟫_ℝ < 0 ↔ step ≠ 0 := by
  constructor
  · rintro hneg rfl
    rw [inner_zero_right] at hneg
    exact hneg.false
  · intro hne
    have hcurvature := h.curvature_pos hne
    rw [h.slope_eq]
    linarith

theorem descends (h : Truncated T g step) : Descends T g step where
  slope := by
    rw [h.slope_neg_iff]
    exact ne_or_eq step 0
  curvature := h.curvature_pos

end Truncated

/-- **A solve from zero ends at a truncated step**, whatever ends it. -/
theorem Course.Traced.truncated {c : Course ℝ n} (hT : T.IsSymmetric)
    (h : c.Traced T M (-g) 0 tolerance budget) : Truncated T g c.point := by
  have hmem : c.point ∈ directions c.heads := by
    have hpoint := h.last.point_mem
    rwa [sub_zero] at hpoint
  constructor
  · have horthogonal := h.last.orthogonal _ hmem
    have hresidual : g + T c.point = -c.residual := by
      rw [h.last.residual_eq]
      abel
    rw [hresidual, inner_neg_left, horthogonal, neg_zero]
  · exact h.heads.positive hT c.point hmem

end Descent.LinearSystem
