import Descent.Proofs.Exact.Euclidean
import Descent.Proofs.Barrier.Family

/-!
# The logarithmic barrier over the reals

What the logarithmic barrier of a family computes when scalars are exact real numbers. The functions
of the family may have effects and may fail; all that is known is which results they return.

* `Family.multipliers_exact`: the multipliers at scale `t` are `-1 / (t cᵢ)`;
* `Family.barrierGradient_exact`: the gradient is `∑ᵢ dcᵢ / (-cᵢ)`;
* `Family.add_divideBy_eq_lagrangian`: divided by `t` and added to the gradient of the objective it
  makes that of the Lagrangian with these multipliers;
* `Family.multipliersAt_pos`, `Family.weightedSum_multipliersAt`: where the constraints are strictly
  satisfied the multipliers are positive, and weighted with them the constraints add up to minus the
  gap;
* `Family.sub_le_gap_add`: so for convex functions no feasible point is better by more than the gap,
  but for what the gradient of the Lagrangian leaves.
-/

open scoped InnerProductSpace

namespace Descent

namespace Family

/-! ## Multipliers -/

/-- The multiplier of a constraint with value `c` at scale `t`. -/
noncomputable def multiplier (t c : ℝ) : ℝ := -1 / (t * c)

theorem multiplier_eq (t c : ℝ) : multiplier t c = t⁻¹ * (1 / -c) := by
  rw [multiplier, one_div, inv_neg, neg_div, one_div, mul_inv, mul_neg]

theorem multiplier_pos {t c : ℝ} (ht : 0 < t) (hc : c < 0) : 0 < multiplier t c := by
  rw [multiplier_eq]
  have hslack : 0 < -c := by linarith
  positivity

/-- Weighted with its multiplier a constraint contributes the same, whatever its value is. -/
theorem multiplier_mul {c : ℝ} (t : ℝ) (hc : c < 0) : multiplier t c * c = -t⁻¹ := by
  rw [multiplier_eq]
  field_simp [hc.ne]

variable {σ : Type} {n : Nat} {f : Family ℝ σ} {c : Nat → Array ℝ → ℝ}
  {dc : Nat → Vec ℝ n → Vec ℝ n}

/-- The multipliers of all constraints at scale `t`. -/
noncomputable def multipliersAt (f : Family ℝ σ) (c : Nat → Array ℝ → ℝ) (t : ℝ) (x : Vec ℝ n) :
    Vec ℝ f.count :=
  Vector.ofFn fun i => multiplier t (c i x.toArray)

/-- The gradient of the Lagrangian. -/
noncomputable def lagrangian (f : Family ℝ σ) (dc : Nat → Vec ℝ n → Vec ℝ n)
    (df : Vec ℝ n → Vec ℝ n) (multipliers : Vec ℝ f.count) (x : Vec ℝ n) : Vec ℝ n :=
  df x + ∑ i : Fin f.count, multipliers[i] • dc i x

/-- The sum of the constraints, weighted with multipliers. -/
noncomputable def weightedSum (f : Family ℝ σ) (c : Nat → Array ℝ → ℝ) (multipliers : Vec ℝ f.count)
    (x : Vec ℝ n) : ℝ :=
  ∑ i : Fin f.count, multipliers[i] * c i x.toArray

theorem getElem_multipliersAt (t : ℝ) (x : Vec ℝ n) (i : Fin f.count) :
    (f.multipliersAt c t x)[i] = multiplier t (c i x.toArray) := by
  simp [multipliersAt]

/-- The gradient of a stage is that of the Lagrangian at the multipliers of its scale. -/
theorem add_divideBy_eq_lagrangian (df : Vec ℝ n → Vec ℝ n) (t : ℝ) (x : Vec ℝ n) :
    df x + Vec.divideBy (∑ i : Fin f.count, (1 / -c i x.toArray) • dc i x) t =
      f.lagrangian dc df (f.multipliersAt c t x) x := by
  rw [lagrangian, Vec.divideBy_eq_smul, Finset.smul_sum]
  congr 1
  refine Finset.sum_congr rfl fun i _ => ?_
  rw [smul_smul, getElem_multipliersAt, multiplier_eq]

/-- At a positive scale the multipliers of strictly satisfied constraints are positive. -/
theorem multipliersAt_pos {x : Vec ℝ n} (hx : ∀ i < f.count, c i x.toArray < 0) {t : ℝ}
    (ht : 0 < t) : ∀ a ∈ f.multipliersAt c t x, 0 < a := by
  intro a ha
  obtain ⟨i, hi, rfl⟩ := Vector.mem_iff_getElem.1 ha
  have hentry : (f.multipliersAt c t x)[i] = multiplier t (c i x.toArray) :=
    getElem_multipliersAt t x ⟨i, hi⟩
  rw [hentry]
  exact multiplier_pos ht (hx i hi)

/-- Weighted with the multipliers the constraints add up to minus the gap. -/
theorem weightedSum_multipliersAt {x : Vec ℝ n} (hx : ∀ i < f.count, c i x.toArray < 0) (t : ℝ) :
    f.weightedSum c (f.multipliersAt c t x) x = -(f.count / t) := by
  have hterm : ∀ i : Fin f.count, (f.multipliersAt c t x)[i] * c i x.toArray = -t⁻¹ := by
    intro i
    rw [getElem_multipliersAt, multiplier_mul t (hx i i.isLt)]
  rw [weightedSum, Finset.sum_congr rfl fun i _ => hterm i]
  rw [Finset.sum_const, Finset.card_univ, Fintype.card_fin, nsmul_eq_mul, div_eq_mul_inv, mul_neg]

/-! ## The gap -/

/-- The first-order inequality of convexity: `f` lies above the linear function that it touches at
`x` with the slope `g`. -/
def Supports (f : Vec ℝ n → ℝ) (x g : Vec ℝ n) : Prop :=
  ∀ y, f x + ⟪g, y - x⟫_ℝ ≤ f y

/-- **The gap bounds what can still be gained.** For a feasible `y` the value at `x` is above that
at `y` by at most the gap, but for what the gradient of the Lagrangian leaves. -/
theorem sub_le_gap_add {objective : Vec ℝ n → ℝ} {df : Vec ℝ n → Vec ℝ n} {x y : Vec ℝ n}
    {multipliers : Vec ℝ f.count} {gap : ℝ} (hpos : ∀ a ∈ multipliers, 0 < a)
    (hgap : f.weightedSum c multipliers x = -gap)
    (hobjective : Supports objective x (df x))
    (hconstraints : ∀ i < f.count, Supports (fun y => c i y.toArray) x (dc i x))
    (hy : ∀ i < f.count, c i y.toArray ≤ 0) :
    objective x - objective y ≤ gap + ⟪f.lagrangian dc df multipliers x, x - y⟫_ℝ := by
  have hterm : ∀ i : Fin f.count,
      multipliers[i] * c i x.toArray ≤ multipliers[i] * ⟪dc i x, x - y⟫_ℝ := by
    intro i
    have hsupport := hconstraints i i.isLt y
    have hflip : ⟪dc i x, y - x⟫_ℝ = -⟪dc i x, x - y⟫_ℝ := by rw [← inner_neg_right, neg_sub]
    have hle : c i x.toArray ≤ ⟪dc i x, x - y⟫_ℝ := by linarith [hy i i.isLt]
    exact mul_le_mul_of_nonneg_left hle (hpos _ (Vector.getElem_mem i.isLt)).le
  have hsum : -gap ≤ ∑ i : Fin f.count, multipliers[i] * ⟪dc i x, x - y⟫_ℝ :=
    hgap ▸ Finset.sum_le_sum fun i _ => hterm i
  have hinner : ⟪f.lagrangian dc df multipliers x, x - y⟫_ℝ =
      ⟪df x, x - y⟫_ℝ + ∑ i : Fin f.count, multipliers[i] * ⟪dc i x, x - y⟫_ℝ := by
    simp only [lagrangian, inner_add_left, sum_inner, real_inner_smul_left]
  have hflip : ⟪df x, y - x⟫_ℝ = -⟪df x, x - y⟫_ℝ := by rw [← inner_neg_right, neg_sub]
  linarith [hobjective y]

/-! ## What the barrier computes -/

variable [RealText]

/-- The values and the gradients that a family returns are those of functions. -/
structure Computes (f : Family ℝ σ) (c : Nat → Array ℝ → ℝ) (dc : Nat → Vec ℝ n → Vec ℝ n) :
    Prop where
  value : ∀ i x, (f.value i x).Returns (c i x)
  gradient : ∀ i x, ((f.gradient i).valueAt "constraint gradient" x).Returns (dc i x)

theorem Computes.keptOn (h : f.Computes c dc) (S : Array ℝ → Prop) :
    f.KeptOn Invariant.none S c where
  value := h.value
  gradient _ _ _ := Run.keeps_none _
  hessian hessian _ i _ x _ :=
    (Run.keeps_none ((hessian i).operatorAt x)).mono fun op _ _ v => Run.keeps_none (op.apply v)

theorem multipliers_exact (h : f.Computes c dc) (t : ℝ) (x : Vec ℝ n) :
    (f.multipliers t x).Returns
      (f.multipliersAt c t x).toArray := by
  refine .bind (values_keeps (h.keptOn fun _ => True) x) fun v hv => .pure ?_
  congr 1
  ext i hi
  have hvalue : v[i] = c i x.toArray := hv ⟨i, hi⟩
  simp [multipliersAt, multiplier, hvalue]

theorem barrierGradient_exact (h : f.Computes c dc) (x : Vec ℝ n) :
    (f.barrierGradient x).Returns (∑ i : Fin f.count, (1 / -c i x.toArray) • dc i x) := by
  refine .bind (slack_keeps (h.keptOn fun _ => True) x) fun slack hslack => ?_
  refine .bind (Run.Keeps.ofFnM fun i => h.gradient i x) fun jacobian hjacobian => .pure ?_
  rw [Mat.applyTransposed_eq_sum]
  refine Finset.sum_congr rfl fun i _ => ?_
  have hrow : jacobian[i] = dc i x := hjacobian i
  rw [hrow]
  simp only [Fin.getElem_fin, Vector.getElem_map]
  rw [← Fin.getElem_fin slack i, hslack i]

end Family

end Descent
