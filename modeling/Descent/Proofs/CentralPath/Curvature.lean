import Descent.Proofs.Barrier.Curvature
import Descent.Proofs.CentralPath.Derivative
import Descent.Proofs.LinearSystem.Termination
import Descent.Proofs.Minimize.Inner

/-!
# The inner solves of convex stages

With convex constraints and a positive definite second derivative of the objective the operator of a
stage is positive definite wherever the constraints are strictly satisfied, and a positive definite
preconditioner stays one when it is scaled to the stage. So the inner solves refuse no direction
before they are done.

* `CentralPath.positiveDefinite_stage`: the operator of a stage;
* `CentralPath.PreconditionsAt`, `CentralPath.stagePreconditioner_ensures`: its preconditioner;
* `barrier_hessian_form`: the barrier and the inner solves of the stages.
-/

open scoped InnerProductSpace

namespace Descent

namespace CentralPath

open LinearSystem Newton

variable {σ : Type} {n : Nat} {I : Invariant ℝ σ} {f : Family ℝ σ} {c : Nat → Vec ℝ n → ℝ}
  {dc : Nat → Vec ℝ n → Vec ℝ n} {d2c : Nat → Vec ℝ n → Vec ℝ n → Vec ℝ n} {x : Vec ℝ n}
  {hessian : Tensor ℝ σ} {A M : Vec ℝ n →ₗ[ℝ] Vec ℝ n} {t : ℝ}

/-- The sum of a positive definite map and a multiple of one that curves up is positive definite. -/
theorem positiveDefinite_stage (hA : PositiveDefinite A) (ht : 0 < t)
    (hx : ∀ i < f.count, c i x < 0) (hc : ∀ i < f.count, CurvesUp (d2c i x)) :
    ∃ T : Vec ℝ n →ₗ[ℝ] Vec ℝ n, PositiveDefinite T ∧
      ∀ v, T v = A v + (1 / t) • f.logHessian c dc d2c x v := by
  have hbarrier : CurvesUp (f.logHessian c dc d2c x) := Family.curvesUp_logHessian hx hc
  obtain ⟨B, hB⟩ : ∃ B : Vec ℝ n →ₗ[ℝ] Vec ℝ n, ∀ v, B v = f.logHessian c dc d2c x v :=
    ⟨hbarrier.linear.mk', fun _ => rfl⟩
  have hsum (v : Vec ℝ n) :
      (A + (1 / t) • B) v = A v + (1 / t) • f.logHessian c dc d2c x v := by
    rw [LinearMap.add_apply, LinearMap.smul_apply, hB]
  refine ⟨A + (1 / t) • B, ⟨fun u v => ?_, fun v hv => ?_⟩, hsum⟩
  · simp only [hsum, inner_add_left, inner_add_right, real_inner_smul_left, real_inner_smul_right,
      hA.symmetric u v, hbarrier.symmetric u v]
  · have hobjective : 0 < ⟪v, A v⟫_ℝ := hA.pos v hv
    have hscaled : 0 ≤ 1 / t * ⟪v, f.logHessian c dc d2c x v⟫_ℝ :=
      mul_nonneg (one_div_pos.2 ht).le (hbarrier.nonneg v)
    rw [hsum, inner_add_right, real_inner_smul_right]
    exact add_pos_of_pos_of_nonneg hobjective hscaled

variable [RealText]

/-- A preconditioner for the Hessian of `t f + φ` that acts as `M` at a point; without one gradients
stay what they are. -/
def PreconditionsAt (I : Invariant ℝ σ) (preconditioner : Option (Preconditioner ℝ σ)) (t : ℝ)
    (x : Vec ℝ n) (M : Vec ℝ n →ₗ[ℝ] Vec ℝ n) : Prop :=
  match preconditioner with
  | none => M = 1
  | some atScale => (atScale t).Ensures I fun tensor =>
    (tensor.operatorAt x).Ensures I (·.Applies I M)

/-- The preconditioner of a stage is positive definite where the one it was made from is. -/
theorem stagePreconditioner_ensures {preconditioner : Option (Preconditioner ℝ σ)}
    (h : PreconditionsAt I preconditioner t x M) (hM : PositiveDefinite M) (ht : 0 < t) :
    (stagePreconditioner preconditioner t).Ensures I fun smoother => ∃ S : Vec ℝ n →ₗ[ℝ] Vec ℝ n,
      PositiveDefinite S ∧ (smootherAt smoother x).Ensures I (Smooths I · S) := by
  cases preconditioner with
  | none => exact .pure ⟨1, positiveDefinite_one, .pure fun r => rfl⟩
  | some atScale =>
    rw [stagePreconditioner_some]
    refine .bind h fun tensor htensor => .pure ⟨t • M, ?_, ?_⟩
    · constructor
      · intro u v
        rw [LinearMap.smul_apply, LinearMap.smul_apply, real_inner_smul_left,
          real_inner_smul_right, hM.symmetric]
      · intro v hv
        rw [LinearMap.smul_apply, real_inner_smul_right]
        exact mul_pos ht (hM.pos v hv)
    · change ((tensor.scaled t).operatorAt x >>= fun op => pure (some op.apply)).Ensures I _
      rw [Tensor.operatorAt_scaled, bind_assoc]
      exact .bind htensor fun op hop => .pure (hop.scaled t)

/-- **An inner solve refuses no direction before it is done** if second derivative and
preconditioner are positive definite at the point. -/
theorem inner_solved {problem : Problem ℝ σ n} {s : Newton.State ℝ n} {T S : Vec ℝ n →ₗ[ℝ] Vec ℝ n}
    {smoother : Option (LinearMap ℝ σ n)} (rule : Newton.Rule ℝ) (hT : PositiveDefinite T)
    (hS : PositiveDefinite S)
    (hhessian : (problem.hessian s.point).Ensures I fun map => ∀ v, (map v).Yields I (T v))
    (hsmoother : Smooths I smoother S) :
    (inner problem rule smoother s).Ensures I fun report =>
      report.residual = -s.gradient - T report.point ∧
      (report.exit = .curvature → report.residual = 0) := by
  refine (inner_ensures_at rule hT.symmetric hS.symmetric hhessian hsmoother).mono ?_
  rintro report ⟨record, rfl, htraced⟩
  exact ⟨htraced.last.residual_eq, htraced.residual_eq_zero_of_curvature hT hS⟩

end CentralPath

open LinearSystem Newton CentralPath in
/-- **The second derivative of the barrier is fit for conjugate gradients.** At a point where no
constraint is zero its quadratic form is a sum over the constraints, it is linear and symmetric if
the second derivatives of the constraints are, and positive semidefinite if moreover these are, as
they are for convex constraints, and the point is strictly feasible. At a strictly feasible point,
with constraints that curve upwards, a positive definite second derivative of the objective and a
preconditioner that is absent or positive definite, the inner solve of a Newton step of any stage
therefore leaves no residual if it ends because of non-positive curvature. -/
theorem barrier_hessian_form {σ : Type} [RealText] (I : Invariant ℝ σ) (f : Family ℝ σ) :
    (∀ {n : Nat} {c : Nat → Vec ℝ n → ℝ} {dc : Nat → Vec ℝ n → Vec ℝ n}
      {d2c : Nat → Vec ℝ n → Vec ℝ n → Vec ℝ n} {x : Vec ℝ n},
      f.EvaluatesAt I c dc d2c x → (∀ i < f.count, c i x ≠ 0) →
      ∃ A : Vec ℝ n → Vec ℝ n,
        (f.barrierHessian x).Ensures I (·.Applies I A) ∧
        (∀ u v, ⟪u, A v⟫_ℝ = ∑ i : Fin f.count,
          (⟪dc i x, u⟫_ℝ * ⟪dc i x, v⟫_ℝ / c i x ^ 2 - ⟪u, d2c i x v⟫_ℝ / c i x)) ∧
        ((∀ i < f.count, IsLinearMap ℝ (d2c i x)) → IsLinearMap ℝ A) ∧
        ((∀ i < f.count, ∀ u v, ⟪u, d2c i x v⟫_ℝ = ⟪d2c i x u, v⟫_ℝ) →
          ∀ u v, ⟪u, A v⟫_ℝ = ⟪A u, v⟫_ℝ) ∧
        ((∀ i < f.count, c i x < 0) → (∀ i < f.count, ∀ v, 0 ≤ ⟪v, d2c i x v⟫_ℝ) →
          ∀ v, 0 ≤ ⟪v, A v⟫_ℝ) ∧
        ((∀ i < f.count, ConvexOn ℝ Set.univ (c i)) →
          (∀ i < f.count, ∀ y v, HasLineDerivAt ℝ (c i) (Vec.dot (dc i y) v) y v) →
          (∀ i < f.count, ∀ v, HasLineDerivAt ℝ (dc i) (d2c i x v) x v) →
          ∀ i < f.count, ∀ v, 0 ≤ ⟪v, d2c i x v⟫_ℝ)) ∧
    ∀ {gradient : VectorField ℝ σ} {hessian : Tensor ℝ σ} {options : Newton.Options ℝ σ}
      {preconditioner : Option (Preconditioner ℝ σ)} {start : Array ℝ} {t : ℝ}, 0 < t →
      (∀ smoother, newtonStage gradient hessian (.family f) options start t smoother =
        minimizeNewton (stageGradient gradient (.family f) t) (stageHessian hessian (.family f) t)
          (.vector start) (outside (.family f)) options smoother) ∧
      ∀ {smoother : Option (Tensor ℝ σ)} {before after : Session ℝ σ} {task : Newton.Task ℝ σ},
        before.Has I → (stagePreconditioner preconditioner t).run before = .ok smoother after →
        Newton.Task.read (stageGradient gradient (.family f) t)
          (stageHessian hessian (.family f) t) (.vector start) (outside (.family f)) options
          smoother = .ok task →
        ∀ (s : Newton.State ℝ task.unknowns) {c : Nat → Vec ℝ task.unknowns → ℝ}
          {dc : Nat → Vec ℝ task.unknowns → Vec ℝ task.unknowns}
          {d2c : Nat → Vec ℝ task.unknowns → Vec ℝ task.unknowns → Vec ℝ task.unknowns}
          {A M : Vec ℝ task.unknowns →ₗ[ℝ] Vec ℝ task.unknowns},
          f.EvaluatesAt I c dc d2c s.point → (∀ i < f.count, c i s.point < 0) →
          (∀ i < f.count, CurvesUp (d2c i s.point)) →
          PositiveDefinite A → (hessian.operatorAt s.point).Ensures I (·.Applies I A) →
          PositiveDefinite M → PreconditionsAt I preconditioner t s.point M →
          (task.problem.precondition s.point).Ensures I fun smooth =>
            Newton.direction task.problem task.rule smooth s =
              Newton.inner task.problem task.rule smooth s >>= Newton.choose smooth s.gradient ∧
            (Newton.inner task.problem task.rule smooth s).Ensures I fun report =>
              report.residual = -s.gradient - (A report.point +
                (1 / t) • f.logHessian c dc d2c s.point report.point) ∧
              (report.exit = .curvature → report.residual = 0) := by
  constructor
  · intro n c dc d2c x h hx
    refine ⟨f.logHessian c dc d2c x, f.barrierHessian_ensures h, Family.inner_logHessian hx,
      Family.isLinearMap_logHessian, Family.inner_logHessian_comm hx,
      Family.inner_logHessian_nonneg, fun hconvex hc hdc i hi v => ?_⟩
    exact inner_nonneg_of_convexOn (hconvex i hi) (fun y => hc i hi y v) (hdc i hi v)
  · intro gradient hessian options preconditioner start t ht
    refine ⟨fun _ => rfl, ?_⟩
    intro smoother before after task hbefore hrun hread s c dc d2c A M h hx hc hA hhessian hM hP
    obtain ⟨T, hT, himage⟩ : ∃ T : Vec ℝ task.unknowns →ₗ[ℝ] Vec ℝ task.unknowns,
        PositiveDefinite T ∧ ∀ v, T v = A v + (1 / t) • f.logHessian c dc d2c s.point v :=
      positiveDefinite_stage hA ht hx hc
    obtain ⟨-, S, hS, hsmooth⟩ := (stagePreconditioner_ensures hP hM ht).of_ok hbefore hrun
    obtain ⟨_, _, hread⟩ := Fault.bind_eq_ok hread
    obtain ⟨_, _, hread⟩ := Fault.bind_eq_ok hread
    cases hread
    refine hsmooth.mono fun smooth hsmooth => ⟨Newton.direction_eq _ _ _ _, ?_⟩
    have hstage : (hessianAt (stageHessian hessian (.family f) t) s.point).Ensures I
        fun map => ∀ v, (map v).Yields I (T v) := by
      refine .bind (stageHessian_ensures h hhessian t) fun op hop => .pure fun v => ?_
      rw [himage]
      exact hop v
    simp only [← himage]
    exact inner_solved _ hT hS hstage hsmooth

/-- The identity, taken twice, curves upwards. -/
theorem curvesUp_double {n : Nat} : CurvesUp fun v : Vec ℝ n => v + v where
  linear := IsLinearMap.mk (fun u v => by abel) fun a v => (smul_add a v v).symm
  symmetric u v := by rw [inner_add_left, inner_add_right]
  nonneg v := by
    rw [inner_add_right]
    exact add_nonneg real_inner_self_nonneg real_inner_self_nonneg

open LinearSystem CentralPath in
/-- The barrier of the unit ball in the plane at the point `(1/2, 1/2)`, and the inner solves there
of the stage at scale 2 for an objective with the gradient `x`. -/
theorem barrier_hessian_form_ball :
    letI := RealText.mute
    let v : Vec ℝ 2 := Vector.replicate 2 1
    (∃ A : Vec ℝ 2 → Vec ℝ 2,
      (curvedBall.barrierHessian (Vector.replicate 2 (1 / 2))).Ensures Invariant.none
        (·.Applies Invariant.none A) ∧
      ⟪v, A v⟫_ℝ = 24 ∧ ∀ u, 0 ≤ ⟪u, A u⟫_ℝ) ∧
    ∃ task : Newton.Task ℝ Unit,
      Newton.Task.read (stageGradient (fun x => return .vector x) (.family curvedBall) 2)
        (stageHessian (.constant (.operator .identity)) (.family curvedBall) 2) (.vector #[0, 0])
        (outside (.family curvedBall)) {}
        (some ((Tensor.constant (.operator (.diagonal #[1, 2]))).scaled 2)) = .ok task ∧
      ∀ s : Newton.State ℝ task.unknowns, s.point = Vector.replicate task.unknowns (1 / 2) →
        (task.problem.precondition s.point).Ensures Invariant.none fun smooth =>
          (Newton.inner task.problem task.rule smooth s).Ensures Invariant.none fun report =>
            report.exit = .curvature → report.residual = 0 := by
  let _ := RealText.mute
  intro v
  let c (n : Nat) : Nat → Vec ℝ n → ℝ := fun _ x => Vec.dot x x - 1
  have hc : c 2 0 (Vector.replicate 2 (1 / 2)) = -(1 / 2) := by
    change Vec.dot _ _ - 1 = _
    rw [Vec.dot_replicate]
    norm_num
  have hx (i : Nat) (_ : i < curvedBall.count) : c 2 i (Vector.replicate 2 (1 / 2)) < 0 := by
    change c 2 0 _ < 0
    rw [hc]
    norm_num
  obtain ⟨hform, hstage⟩ := barrier_hessian_form Invariant.none curvedBall
  constructor
  · obtain ⟨A, hA, hsum, -, -, hnonneg, -⟩ :=
      hform (curvedBall_evaluatesAt _) fun i hi => (hx i hi).ne
    refine ⟨A, hA, ?_, hnonneg hx fun i _ => curvesUp_double.nonneg⟩
    rw [hsum]
    refine (Fin.sum_univ_one _).trans ?_
    simp only [Vec.add_replicate, ← Vec.dot_eq_inner, v, Vec.dot_replicate]
    norm_num
  · have hread := Newton.Task.read_of_settings (σ := Unit)
      (Newton.settings_default (.gradientNorm 1e-8))
      (stageGradient (fun x => return .vector x) (.family curvedBall) 2)
      (stageHessian (.constant (.operator .identity)) (.family curvedBall) 2)
      (outside (.family curvedBall))
      (some ((Tensor.constant (.operator (.diagonal #[1, 2]))).scaled 2)) #[0, 0]
    refine ⟨_, hread, fun s hs => ?_⟩
    have hM : PositiveDefinite (diagonalMap #v[1, 2]) := positiveDefinite_diagonalMap (by simp)
    have hP : PreconditionsAt Invariant.none
        (some fun _ => pure (.constant (.operator (.diagonal #[1, 2])))) 2 s.point
        (diagonalMap #v[1, 2]) :=
      .pure (Tensor.actsAs_constant (actsAs_diagonal (σ := Unit) Invariant.none #[1, 2]) s.point)
    have hA := Tensor.actsAs_constant (actsAs_identity (n := 2) (σ := Unit) Invariant.none) s.point
    intro session hsession
    have hrun : (stagePreconditioner (some fun _ =>
        pure (.constant (.operator (.diagonal #[1, 2])))) 2).run session =
          .ok (some ((Tensor.constant (.operator (.diagonal #[1, 2]))).scaled 2)) session := rfl
    have hinner := (hstage two_pos).2 hsession hrun hread s (curvedBall_evaluatesAt _) (hs ▸ hx)
      (fun _ _ => curvesUp_double) positiveDefinite_one hA hM hP
    exact (hinner.mono fun smooth hsmooth => hsmooth.2.mono fun report hreport => hreport.2)
      session hsession

end Descent
