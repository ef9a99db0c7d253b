import Mathlib.Analysis.InnerProductSpace.Calculus
import Descent.Proofs.Barrier.Derivative
import Descent.Proofs.CentralPath.Scaling

/-!
# The derivatives of a stage

A stage at scale `t` of the path with truncated Newton steps minimizes `f + φ / t`. It hands two
functions to the minimizer: the gradient, and the operator that is the sum of the second derivative
of the objective and of that of the barrier, divided by `t`. The second one is the derivative of the
first one wherever the parts of the objective and of the constraints are derivatives of one another.

* `CentralPath.stageGradient_yields`, `CentralPath.stageHessian_ensures`: what a stage hands over;
* `barrier_derivatives`: the derivatives of the barrier and of the stages.
-/

open scoped Topology

namespace Descent

variable {σ : Type} {n : Nat} {I : Invariant ℝ σ}

/-! ## The stages -/

namespace CentralPath

variable {f : Family ℝ σ} {c : Nat → Vec ℝ n → ℝ} {dc : Nat → Vec ℝ n → Vec ℝ n}
  {d2c : Nat → Vec ℝ n → Vec ℝ n → Vec ℝ n} {df : Vec ℝ n → Vec ℝ n}
  {d2f : Vec ℝ n → Vec ℝ n → Vec ℝ n} {x v : Vec ℝ n} {gradient : VectorField ℝ σ}
  {hessian : Tensor ℝ σ}

theorem hasLineDerivAt_stage (hdf : HasLineDerivAt ℝ df (d2f x v) x v)
    (hlog : HasLineDerivAt ℝ (f.logGradient c dc) (f.logHessian c dc d2c x v) x v) (t : ℝ) :
    HasLineDerivAt ℝ (fun y => df y + (1 / t) • f.logGradient c dc y)
      (d2f x v + (1 / t) • f.logHessian c dc d2c x v) x v := by
  have hscaled : HasDerivAt (fun ε : ℝ => (1 / t) • f.logGradient c dc (x + ε • v))
      ((1 / t) • f.logHessian c dc d2c x v) 0 := HasDerivAt.const_smul (1 / t) hlog
  exact HasDerivAt.add hdf hscaled

variable [RealText]

theorem stageGradient_yields (h : f.EvaluatesAt I c dc d2c x)
    (hgradient : (gradient.valueAt "gradient" x).Yields I (df x)) (t : ℝ) :
    ((stageGradient gradient (.family f) t).valueAt "gradient" x).Yields I
      (df x + (1 / t) • f.logGradient c dc x) := by
  rw [valueAt_stageGradient, one_div, ← Vec.divideBy_eq_smul]
  exact hgradient.bind (.bind (f.barrierGradient_yields h) .pure)

theorem operatorAt_stageHessian (barrier : Barrier ℝ σ) (t : ℝ) :
    (stageHessian hessian barrier t).operatorAt x =
      hessian.operatorAt x >>= fun a => barrier.hessian x >>= fun b =>
        Run.ofExcept (a.add (b.scaled (1 / t))) := by
  obtain ⟨a, rfl⟩ := x
  refine Tensor.operatorAt_eq ?_
  simp only [bind_assoc]
  rfl

theorem stageHessian_ensures {A : Vec ℝ n → Vec ℝ n} (h : f.EvaluatesAt I c dc d2c x)
    (hhessian : (hessian.operatorAt x).Ensures I (·.Applies I A)) (t : ℝ) :
    ((stageHessian hessian (.family f) t).operatorAt x).Ensures I
      (·.Applies I fun w => A w + (1 / t) • f.logHessian c dc d2c x w) := by
  rw [operatorAt_stageHessian]
  refine .bind hhessian fun a ha => .bind (f.barrierHessian_ensures h) fun b hb => ?_
  exact Operator.add_ensures ha (hb.scaled (1 / t))

end CentralPath

/-! ## The barrier and its stages -/

namespace Family

variable {f : Family ℝ σ} {c : Nat → Vec ℝ n → ℝ} {dc : Nat → Vec ℝ n → Vec ℝ n}
  {d2c : Nat → Vec ℝ n → Vec ℝ n → Vec ℝ n} {x v : Vec ℝ n}

/-- Strictly satisfied constraints that have a slope along a line stay so nearby. -/
theorem eventually_strict (hx : ∀ i < f.count, c i x < 0)
    (hc : ∀ i < f.count, HasLineDerivAt ℝ (c i) (Vec.dot (dc i x) v) x v) :
    ∀ᶠ ε in 𝓝 (0 : ℝ), ∀ i < f.count, c i (x + ε • v) < 0 := by
  refine (Filter.eventually_all_finite (Set.finite_lt_nat f.count)).2 fun i hi => ?_
  have hcontinuous : ContinuousAt (fun ε : ℝ => c i (x + ε • v)) 0 := (hc i hi).continuousAt
  refine hcontinuous.eventually_lt_const ?_
  simpa using hx i hi

end Family

open CentralPath in
/-- **The parts of the barrier are derivatives of one another, and so are those of the stages.**
Take a strictly feasible point and a direction in which the gradients of the constraints are the
derivatives of their values, and the second derivatives those of the gradients, zero if the family
has none. Along this direction the points nearby are strictly feasible, the gradient of the barrier
is the derivative of its value, and its second derivative that of its gradient. If moreover the
second derivative of the objective is the derivative of its gradient, then the operator that a stage
hands to the Newton steps is the derivative of the gradient that it hands to them. -/
theorem barrier_derivatives [RealText] {f : Family ℝ σ} {c : Nat → Vec ℝ n → ℝ}
    {dc : Nat → Vec ℝ n → Vec ℝ n} {d2c : Nat → Vec ℝ n → Vec ℝ n → Vec ℝ n} {x v : Vec ℝ n}
    (hevaluates : ∀ y, (∀ i < f.count, c i y < 0) → f.EvaluatesAt I c dc d2c y)
    (hx : ∀ i < f.count, c i x < 0)
    (hc : ∀ i < f.count, HasLineDerivAt ℝ (c i) (Vec.dot (dc i x) v) x v)
    (hdc : ∀ i < f.count, HasLineDerivAt ℝ (dc i) (d2c i x v) x v) :
    (∀ᶠ ε in 𝓝 (0 : ℝ), ∀ i < f.count, c i (x + ε • v) < 0) ∧
    (∀ y, (∀ i < f.count, c i y < 0) →
      (f.barrierValue y).Yields I (f.logValue c y) ∧
      (f.barrierGradient y).Yields I (f.logGradient c dc y) ∧
      (f.barrierHessian y).Ensures I (·.Applies I (f.logHessian c dc d2c y))) ∧
    HasLineDerivAt ℝ (f.logValue c) (Vec.dot (f.logGradient c dc x) v) x v ∧
    HasLineDerivAt ℝ (f.logGradient c dc) (f.logHessian c dc d2c x v) x v ∧
    ∀ (gradient : VectorField ℝ σ) (hessian : Tensor ℝ σ) (df : Vec ℝ n → Vec ℝ n)
      (d2f : Vec ℝ n → Vec ℝ n → Vec ℝ n) (t : ℝ),
      (∀ y, (∀ i < f.count, c i y < 0) → (gradient.valueAt "gradient" y).Yields I (df y)) →
      (∀ y, (∀ i < f.count, c i y < 0) →
        (hessian.operatorAt y).Ensures I (·.Applies I (d2f y))) →
      HasLineDerivAt ℝ df (d2f x v) x v →
      (∀ options start smoother,
        newtonStage gradient hessian (.family f) options start t smoother =
          minimizeNewton (stageGradient gradient (.family f) t) (stageHessian hessian (.family f) t)
            (.vector start) (outside (.family f)) options smoother) ∧
      (∀ y, (∀ i < f.count, c i y < 0) →
        ((stageGradient gradient (.family f) t).valueAt "gradient" y).Yields I
          (df y + (1 / t) • f.logGradient c dc y) ∧
        ((stageHessian hessian (.family f) t).operatorAt y).Ensures I
          (·.Applies I fun w => d2f y w + (1 / t) • f.logHessian c dc d2c y w)) ∧
      HasLineDerivAt ℝ (fun y => df y + (1 / t) • f.logGradient c dc y)
        (d2f x v + (1 / t) • f.logHessian c dc d2c x v) x v := by
  have hne (i : Nat) (hi : i < f.count) : c i x ≠ 0 := (hx i hi).ne
  have hlog : HasLineDerivAt ℝ (f.logGradient c dc) (f.logHessian c dc d2c x v) x v :=
    Family.hasLineDerivAt_logGradient hne hc hdc
  refine ⟨Family.eventually_strict hx hc, fun y hy => ?_, Family.hasLineDerivAt_logValue hne hc,
    hlog, ?_⟩
  · have h := hevaluates y hy
    exact ⟨f.barrierValue_yields h, f.barrierGradient_yields h, f.barrierHessian_ensures h⟩
  · intro gradient hessian df d2f t hgradient hhessian hdf
    refine ⟨fun _ _ _ => rfl, fun y hy => ?_, hasLineDerivAt_stage hdf hlog t⟩
    have h := hevaluates y hy
    exact ⟨stageGradient_yields h (hgradient y hy) t, stageHessian_ensures h (hhessian y hy) t⟩

/-! ## The unit ball -/

theorem hasLineDerivAt_self (x v : Vec ℝ n) : HasLineDerivAt ℝ (fun y : Vec ℝ n => y) v x v := by
  have hline : HasDerivAt (fun ε : ℝ => x + ε • v) ((1 : ℝ) • v) 0 :=
    ((hasDerivAt_id (0 : ℝ)).smul_const v).const_add x
  rwa [one_smul] at hline

theorem hasLineDerivAt_double (x v : Vec ℝ n) :
    HasLineDerivAt ℝ (fun y : Vec ℝ n => y + y) (v + v) x v :=
  HasDerivAt.add (hasLineDerivAt_self x v) (hasLineDerivAt_self x v)

theorem hasLineDerivAt_square (x v : Vec ℝ n) :
    HasLineDerivAt ℝ (fun y : Vec ℝ n => Vec.dot y y - 1) (Vec.dot (x + x) v) x v := by
  have hline : HasDerivAt (fun ε : ℝ => x + ε • v) v 0 := hasLineDerivAt_self x v
  refine ((hline.inner ℝ hline).sub_const 1).congr_deriv ?_
  simp [Vec.dot_eq_inner, inner_add_left, real_inner_comm]

theorem Vec.add_replicate (a b : ℝ) :
    Vector.replicate n a + Vector.replicate n b = Vector.replicate n (a + b) := by
  ext i hi
  simp

theorem Vec.smul_replicate (a b : ℝ) :
    a • Vector.replicate n b = Vector.replicate n (a * b) := by
  ext i hi
  rw [← Vec.hmul_eq_smul]
  simp

theorem Vec.dot_replicate (a b : ℝ) :
    Vec.dot (Vector.replicate n a) (Vector.replicate n b) = n * (a * b) := by
  rw [Vec.dot_eq_sum]
  simp

/-- The points of norm at most one, with the second derivatives of the constraint. -/
noncomputable def curvedBall : Family ℝ Unit :=
  { unitBall with
    hessian := some fun _ => .constant (.operator (.sum .identity .identity))
    hessianDiagonal := some fun _ x => return .vector (x.map fun _ => 1 + 1) }

theorem curvedBall_logGradient (c : Nat → Vec ℝ n → ℝ) (dc : Nat → Vec ℝ n → Vec ℝ n)
    (x : Vec ℝ n) : curvedBall.logGradient c dc x = (1 / -c 0 x) • dc 0 x :=
  Fin.sum_univ_one _

theorem curvedBall_logHessian (c : Nat → Vec ℝ n → ℝ) (dc : Nat → Vec ℝ n → Vec ℝ n)
    (d2c : Nat → Vec ℝ n → Vec ℝ n → Vec ℝ n) (x v : Vec ℝ n) :
    curvedBall.logHessian c dc d2c x v =
      (Vec.dot (dc 0 x) v / (c 0 x * c 0 x)) • dc 0 x + (1 / -c 0 x) • d2c 0 x v :=
  Fin.sum_univ_one _

theorem curvedBall_evaluatesAt [RealText] (x : Vec ℝ n) :
    curvedBall.EvaluatesAt Invariant.none (fun _ x => Vec.dot x x - 1) (fun _ x => x + x)
      (fun _ _ v => v + v) x where
  value i _ := by
    obtain ⟨a, rfl⟩ := x
    exact .pure
  gradient i _ := by
    obtain ⟨a, rfl⟩ := x
    exact .bind .pure (.ofExcept (Datum.toVec_vector _ _))
  hessian hessian hhessian i _ := by
    cases hhessian
    have hidentity : (Operator.identity : Operator ℝ Unit).Applies Invariant.none
        fun v : Vec ℝ n => v := fun _ => .pure
    exact .pure (hidentity.sum hidentity)
  linear hnone := by cases hnone

/-- The barrier of the unit ball in the plane at the point `(1/2, 1/2)` and along `(1, 1)`, and a
stage for an objective with the gradient `x`. -/
theorem barrier_derivatives_ball : let _ := RealText.mute
    let c : Nat → Vec ℝ 2 → ℝ := fun _ x => Vec.dot x x - 1
    let dc : Nat → Vec ℝ 2 → Vec ℝ 2 := fun _ x => x + x
    let x : Vec ℝ 2 := Vector.replicate 2 (1 / 2)
    let v : Vec ℝ 2 := Vector.replicate 2 1
    HasLineDerivAt ℝ (curvedBall.logValue c) 4 x v ∧
    HasLineDerivAt ℝ (curvedBall.logGradient c dc) (Vector.replicate 2 12) x v ∧
    HasLineDerivAt ℝ (fun y => y + (1 / 2 : ℝ) • curvedBall.logGradient c dc y)
      (Vector.replicate 2 7) x v ∧
    ((CentralPath.stageHessian (.constant (.operator .identity)) (.family curvedBall) 2).operatorAt
      x).Ensures Invariant.none fun op =>
        (op.apply v).Yields Invariant.none (Vector.replicate 2 7) := by
  intro _ c dc x v
  have hc : c 0 x = -(1 / 2) := by
    change Vec.dot x x - 1 = _
    rw [Vec.dot_replicate]
    norm_num
  have hdc : dc 0 x = Vector.replicate 2 1 := by
    change x + x = _
    rw [Vec.add_replicate]
    norm_num
  have hx (i : Nat) (_ : i < curvedBall.count) : c i x < 0 := by
    change c 0 x < 0
    rw [hc]
    norm_num
  obtain ⟨-, -, hvalue, hgradient, hstage⟩ := barrier_derivatives
    (fun y _ => curvedBall_evaluatesAt y) hx (fun _ _ => hasLineDerivAt_square x v)
    (fun _ _ => hasLineDerivAt_double x v)
  obtain ⟨-, hruns, hderiv⟩ := hstage (fun x => return .vector x) (.constant (.operator .identity))
    (fun y => y) (fun _ w => w) 2
    (fun y _ => .bind .pure (.ofExcept (Datum.toVec_vector _ y))) (fun y _ => .pure fun w => .pure)
    (hasLineDerivAt_self x v)
  have hslope : Vec.dot (curvedBall.logGradient c dc x) v = 4 := by
    rw [curvedBall_logGradient, hc, hdc, Vec.smul_replicate, Vec.dot_replicate]
    norm_num
  have himage : curvedBall.logHessian c dc (fun _ _ v => v + v) x v =
      Vector.replicate 2 12 := by
    rw [curvedBall_logHessian, hc, hdc, Vec.dot_replicate]
    simp only [v, Vec.smul_replicate, Vec.add_replicate]
    norm_num
  have hsum : v + (1 / 2 : ℝ) • curvedBall.logHessian c dc (fun _ _ v => v + v) x v =
      Vector.replicate 2 7 := by
    rw [himage, Vec.smul_replicate, Vec.add_replicate]
    norm_num
  rw [hslope] at hvalue
  rw [himage] at hgradient
  rw [hsum] at hderiv
  refine ⟨hvalue, hgradient, hderiv, (hruns x hx).2.mono fun op hop => ?_⟩
  rw [← hsum]
  exact hop v

end Descent
