import Descent.Proofs.CentralPath.Derivative
import Descent.Proofs.CentralPath.Limits
import Descent.Proofs.CentralPath.Schedule
import Descent.Proofs.Minimize.Likeness

/-!
# No constraints

A family without constraints changes nothing, with exact real numbers as scalars. Its barrier and
all derivatives of it are zero, no point is outside, and after the first stage the gap is zero.

* `Family.barrierHessian_of_empty` and its neighbours: what the parts of such a family do;
* `CentralPath.conjugateStage_of_empty`: a stage is the minimization of the objective alone;
* `Newton.solve_related_of_direction`: Newton runs that find the same directions are in lock-step.
  Sums of operators are refused when they are formed and not when they are applied, so a second
  derivative of the wrong size leads to another fault with a family than without;
* `minimize_without_constraints`: constrained minimizations do what the minimizers do, and certify
  the result with no multipliers and no gap.
-/

namespace Descent

/-! ## Families without constraints -/

namespace Family

variable {σ : Type} [RealText] {n : Nat} {f : Family ℝ σ}

omit [RealText] in
/-- There is one vector of values, the empty one, and finding it takes no calls. -/
theorem values_of_empty (hf : f.count = 0) (x : Vec ℝ n) (v : Vec ℝ f.count) :
    f.values x = pure v := by
  obtain ⟨count, value, gradient, hessian, diagonal⟩ := f
  obtain rfl : count = 0 := hf
  exact Vector.ofFnM_zero.trans (congrArg pure (Vector.eq_empty.trans Vector.eq_empty.symm))

theorem slack_of_empty (hf : f.count = 0) (x : Vec ℝ n) (v : Vec ℝ f.count) :
    f.slack x = pure (-v) := by
  rw [slack, values_of_empty hf x v, pure_bind]

theorem gradients_of_empty (hf : f.count = 0) (x : Vec ℝ n) (rows : Mat ℝ f.count n) :
    f.gradients x = pure rows := by
  obtain ⟨count, value, gradient, hessian, diagonal⟩ := f
  obtain rfl : count = 0 := hf
  exact Vector.ofFnM_zero.trans (congrArg pure (Vector.eq_empty.trans Vector.eq_empty.symm))

theorem curvatures_of_empty (hf : f.count = 0) (x : Vec ℝ n) : f.curvatures x = pure [] := by
  unfold curvatures
  rw [hf]
  cases f.hessian <;> rfl

omit [RealText] in
/-- A sum over the rows of a matrix without rows. -/
theorem applyTransposed_of_empty (hf : f.count = 0) (rows : Mat ℝ f.count n) (w : Vec ℝ f.count) :
    Mat.applyTransposed rows w = 0 := by
  rw [Mat.applyTransposed_eq_sum]
  exact Finset.sum_eq_zero fun i _ => absurd i.isLt (by omega)

theorem barrierValue_of_empty (hf : f.count = 0) (x : Vec ℝ n) : f.barrierValue x = pure 0 := by
  rw [barrierValue, slack_of_empty hf x 0, pure_bind, Vec.foldl_add_eq_sum,
    Finset.sum_eq_zero fun i _ => absurd i.isLt (by omega), neg_zero]

theorem barrierGradient_of_empty (hf : f.count = 0) (x : Vec ℝ n) :
    f.barrierGradient x = pure 0 := by
  rw [barrierGradient, slack_of_empty hf x 0, pure_bind, gradients_of_empty hf x 0, pure_bind,
    applyTransposed_of_empty hf]

/-- The second derivative of the barrier maps all vectors to zero. -/
theorem barrierHessian_of_empty (hf : f.count = 0) (x : Vec ℝ n) :
    ∃ op, f.barrierHessian x = pure op ∧ op.size? = some (n : Int) ∧
      ∀ v : Vec ℝ n, op.apply v = pure 0 := by
  rw [barrierHessian, slack_of_empty hf x 0, pure_bind, gradients_of_empty hf x 0, pure_bind,
    curvatures_of_empty hf, pure_bind]
  refine ⟨_, rfl, rfl, fun v => Operator.apply_function ?_⟩
  rw [dif_pos v.size_toArray, applyHessian, List.zip_nil_right, addCurvature,
    applyTransposed_of_empty hf]

theorem multipliers_of_empty (hf : f.count = 0) (t : ℝ) (x : Vec ℝ n) :
    f.multipliers t x = pure #[] := by
  rw [multipliers, values_of_empty hf x 0, pure_bind]
  refine congrArg pure (Array.eq_empty_of_size_eq_zero ?_)
  rw [Vector.size_toArray, hf]

theorem outside_of_empty (hf : f.count = 0) (x : Vec ℝ n) : f.outside x = pure false := by
  rw [outside, hf, violatedFrom]

end Family

/-! ## Stages -/

namespace CentralPath

variable {σ : Type} [RealText] {f : Family ℝ σ} (hf : f.count = 0)
include hf

theorem stageValue_of_empty (value : ScalarField ℝ σ) (t : ℝ) :
    stageValue (some value) (.family f) t = value := by
  funext w
  have hbarrier : (Barrier.family f).value (Vec.ofArray w) = pure 0 :=
    Family.barrierValue_of_empty hf _
  simp only [stageValue, hbarrier, pure_bind, zero_div, add_zero, bind_pure]

theorem valueAt_stageGradient_of_empty (gradient : VectorField ℝ σ) (t : ℝ) {n : Nat} :
    (stageGradient gradient (.family f) t).valueAt "gradient" =
      (gradient.valueAt "gradient" : Vec ℝ n → _) := by
  funext x
  have hbarrier : (Barrier.family f).gradient x = pure 0 := Family.barrierGradient_of_empty hf x
  simp only [valueAt_stageGradient, hbarrier, pure_bind, Vec.divideBy_eq_smul, smul_zero, add_zero,
    bind_pure]

theorem outside_of_empty : outside (.family f) = Region.everywhere :=
  funext fun w => Family.outside_of_empty hf (Vec.ofArray w)

/-- **A stage is the minimization of the objective alone.** -/
theorem conjugateStage_of_empty (value : ScalarField ℝ σ) (gradient : VectorField ℝ σ)
    (options : Conjugate.Options ℝ σ) (x : Array ℝ) (t : ℝ) (smoother : Option (Tensor ℝ σ)) :
    conjugateStage (some value) gradient (.family f) options x t smoother =
      minimizeConjugate (some value) gradient (.vector x) options Region.everywhere smoother := by
  unfold conjugateStage minimizeConjugate Conjugate.Task.read Conjugate.Problem.posed
  simp only [stageValue_of_empty hf, valueAt_stageGradient_of_empty hf, outside_of_empty hf]

/-- A sum with the second derivative of the barrier acts as the other summand. It is refused if that
one is of another size than the vectors at hand. -/
theorem hessianAt_stageHessian_of_empty (hessian : Tensor ℝ σ) (t : ℝ) {n : Nat} (x : Vec ℝ n) :
    Newton.hessianAt (stageHessian hessian (.family f) t) x =
      hessian.operatorAt x >>= fun op =>
        if ∀ size, op.size? = some size → size = (n : Int) then pure op.apply
        else throw (.summands (op.size?.getD 0) n) := by
  obtain ⟨none, hnone, hsize, happly⟩ := Family.barrierHessian_of_empty hf x
  have hbarrier : (Barrier.family f).hessian x = pure none := hnone
  have hscaled : (none.scaled (1 / t)).size? = some (n : Int) := hsize
  have hfits (size : Int) (h : (none.scaled (1 / t)).size? = some size) : size = n := by
    rw [hscaled] at h
    exact (Option.some.inj h).symm
  have hzero (v : Vec ℝ n) : (none.scaled (1 / t)).apply v = pure 0 := by
    rw [Operator.apply, Operator.fits_eq_pure hfits, pure_bind, happly, pure_bind,
      Vec.hmul_eq_smul, smul_zero]
  rw [Newton.hessianAt, operatorAt_stageHessian, bind_assoc]
  refine bind_congr fun op => ?_
  rw [hbarrier, pure_bind]
  split
  · rename_i hop
    have hadd : op.add (none.scaled (1 / t)) = .ok (.sum op (none.scaled (1 / t))) :=
      Operator.add_eq_sum fun k l hk hl => (hop k hk).trans (hfits l hl).symm
    rw [hadd]
    exact congrArg (pure : LinearMap ℝ σ n → Run ℝ σ _)
      (funext fun v => Operator.apply_sum_of_zero hop hscaled hzero v)
  · rename_i hmisfit
    push Not at hmisfit
    obtain ⟨size, hop, hne⟩ := hmisfit
    rw [Operator.add_eq_error hop hscaled hne, hop]
    rfl

end CentralPath

/-! ## Newton runs that find the same directions -/

namespace Newton

variable {α σ : Type} [Numeral α] {n : Nat} {problem : Problem α σ n}
  {hessian : Vec α n → Run α σ (LinearMap α σ n)} {rule : Rule α}

theorem leg_related_of_direction
    (h : ∀ smoother s, Run.Related Eq Eq (direction { problem with hessian } rule smoother s)
      (direction problem rule smoother s)) (s : State α n) :
    Run.Related Eq Eq (leg { problem with hessian } rule s) (leg problem rule s) := by
  refine .bind (.refl (problem.precondition s.point)) ?_
  rintro smoother _ rfl
  refine .bind (h smoother s) ?_
  rintro direction _ rfl
  exact .refl _

theorem iterate_related_of_direction
    (h : ∀ smoother s, Run.Related Eq Eq (direction { problem with hessian } rule smoother s)
      (direction problem rule smoother s)) : ∀ budget s,
    Run.Related Eq Eq (iterate { problem with hessian } rule budget s)
      (iterate problem rule budget s) := by
  intro budget
  induction budget with
  | zero => exact fun s => .refl _
  | succ budget ih =>
    intro s
    refine .bind (.refl (problem.stop s.gradient s.iterations)) ?_
    rintro holds _ rfl
    refine .ite Iff.rfl (fun _ => .refl _) fun _ => .bind (leg_related_of_direction h s) ?_
    rintro leg _ rfl
    cases leg with
    | accepted t => exact ih t
    | ended t => exact .refl _

/-- **Newton runs that find the same directions are in lock-step.** -/
theorem solve_related_of_direction
    (h : ∀ smoother s, Run.Related Eq Eq (direction { problem with hessian } rule smoother s)
      (direction problem rule smoother s)) (budget : Nat) (start : Vec α n) :
    Run.Related Eq Eq (solve { problem with hessian } rule budget start)
      (solve problem rule budget start) := by
  refine .bind (.refl (problem.gradient start)) ?_
  rintro gradient _ rfl
  exact iterate_related_of_direction h budget _

/-- An inner solve starts with an image, so an operator of another size refuses it at once. -/
theorem run_of_misfit {op : Operator α σ} {size : Int} (hsize : op.size? = some size)
    (hne : size ≠ n) (smoother : Option (LinearMap α σ n)) (b guess : Vec α n) (tolerance : α)
    (budget : Nat) : LinearSystem.run ⟨op.apply, smoother⟩ b guess tolerance budget =
      throw (op.misfit n) := by
  unfold LinearSystem.run LinearSystem.solve
  dsimp only
  rw [Operator.apply_of_misfit hsize hne]
  rfl

end Newton

namespace CentralPath

variable {σ : Type} [RealText] {f : Family ℝ σ}

open Newton in
/-- The directions of a stage are those of the objective alone. -/
theorem direction_related_of_empty (hf : f.count = 0) (hessian : Tensor ℝ σ) (t : ℝ) {n : Nat}
    {problem : Problem ℝ σ n} (hproblem : problem.hessian = hessianAt hessian) (rule : Rule ℝ)
    (smoother : Option (LinearMap ℝ σ n)) (s : State ℝ n) :
    Run.Related Eq Eq
      (direction { problem with hessian := hessianAt (stageHessian hessian (.family f) t) } rule
        smoother s) (direction problem rule smoother s) := by
  unfold direction
  dsimp only
  rw [hproblem, hessianAt_stageHessian_of_empty hf, hessianAt, bind_assoc, bind_assoc]
  refine .bind (.refl _) ?_
  rintro op _ rfl
  split
  · exact .refl _
  · rename_i hmisfit
    push Not at hmisfit
    obtain ⟨size, hop, hne⟩ := hmisfit
    rw [pure_bind, run_of_misfit hop hne]
    exact .throw

open Newton in
/-- **A stage is in lock-step with the minimization of the objective alone.** -/
theorem newtonStage_related_of_empty (hf : f.count = 0) (gradient : VectorField ℝ σ)
    (hessian : Tensor ℝ σ) (options : Newton.Options ℝ σ) (x : Array ℝ) (t : ℝ)
    (smoother : Option (Tensor ℝ σ)) :
    Run.Related Eq Eq (newtonStage gradient hessian (.family f) options x t smoother)
      (minimizeNewton gradient hessian (.vector x) Region.everywhere options smoother) := by
  unfold newtonStage minimizeNewton Task.read Problem.posed
  simp only [valueAt_stageGradient_of_empty hf, outside_of_empty hf, Minimize.Task.ofExcept_setUp,
    bind_assoc, pure_bind]
  refine .check fun settings _ => .check fun w _ => ?_
  have hdirection := direction_related_of_empty hf hessian t
    (show (Problem.posed w.size gradient hessian Region.everywhere smoother settings.stop).hessian =
      hessianAt hessian from rfl) (settings.rule w.size)
  refine .bind (solve_related_of_direction hdirection _ (Vec.ofArray w)) ?_
  rintro report _ rfl
  exact .refl _

end CentralPath

open CentralPath

/-! ## Paths -/

variable {σ : Type} [RealText]

/-- A path that meets its gap in the first stage. -/
theorem CentralPath.follow_related_of_empty {f : Family ℝ σ} (hf : f.count = 0)
    {stage : Stage ℝ σ} {minimize : Option (Tensor ℝ σ) → Run ℝ σ (Array ℝ)} {x : Array ℝ} {t : ℝ}
    (hstage : ∀ smoother, Run.Related Eq Eq (stage x t smoother) (minimize smoother))
    {schedule : Schedule ℝ} (hgap : 0 < schedule.dualityGap.ceiling)
    (preconditioner : Option (Preconditioner ℝ σ)) (left : Nat) :
    Run.Related Eq (fun c y => c = ⟨y, #[], t, 0, 1, .optimal, [0]⟩)
      (follow stage (.family f) schedule preconditioner left [] x t)
      (do
        let smoother ← stagePreconditioner preconditioner t
        let y ← minimize smoother
        Run.debug .centralPath fun _ => stageLine 1 t 0
        return y) := by
  have hmultipliers (y : Array ℝ) :
      (Barrier.family f).multipliers t (Vec.ofArray y) = pure #[] :=
    Family.multipliers_of_empty hf t _
  have hzero : (Scalar.ofNat (#[] : Array ℝ).size : ℝ) / t = 0 := by simp [Scalar.ofNat]
  have harrive : Run.Related Eq (fun a y => a = ⟨y, #[], t, 0⟩)
      (arrive stage (.family f) preconditioner 0 x t)
      (do
        let smoother ← stagePreconditioner preconditioner t
        let y ← minimize smoother
        Run.debug .centralPath fun _ => stageLine 1 t 0
        return y) := by
    refine .bind (.refl _) ?_
    rintro smoother _ rfl
    refine .bind (hstage smoother) ?_
    rintro y _ rfl
    rw [hmultipliers, pure_bind, hzero]
    refine .bind (.refl _) fun _ _ _ => ?_
    exact .pure rfl
  rw [← bind_pure (stagePreconditioner preconditioner t >>= _)]
  cases left <;>
  · refine .bind harrive ?_
    rintro a y rfl
    rw [if_pos hgap]
    exact .pure rfl

/-- **A family without constraints changes nothing.** Constrained minimizations do what the
minimizers do with the preconditioner of the first scale, followed by the line about the stage. They
return the minimum with no multipliers and no gap, after one stage, as optimal. -/
theorem minimize_without_constraints {f : Family ℝ σ} (hf : f.count = 0)
    {path : CentralPath.Options ℝ} {schedule : Schedule ℝ}
    (hschedule : path.schedule = .ok schedule) {t : ℝ}
    (ht : path.initialScale.toNumber >>= Number.toScalar = .ok t) {start : Datum ℝ}
    {w : Array ℝ} (hstart : start.toVector "w0" = .ok w)
    (preconditioner : Option (Preconditioner ℝ σ)) :
    (∀ (value : ScalarField ℝ σ) (gradient : VectorField ℝ σ) (options : Conjugate.Options ℝ σ),
      Run.Related Eq (fun c x => c = ⟨x, #[], t, 0, 1, .optimal, [0]⟩)
        (minimizeConjugateConstrained (some value) gradient start (.family f) path options
          preconditioner)
        (do
          let smoother ← stagePreconditioner preconditioner t
          let x ← minimizeConjugate (some value) gradient start options Region.everywhere smoother
          Run.debug .centralPath fun _ => stageLine 1 t 0
          return x)) ∧
    ∀ (gradient : VectorField ℝ σ) (hessian : Tensor ℝ σ) (options : Newton.Options ℝ σ),
      Run.Related Eq (fun c x => c = ⟨x, #[], t, 0, 1, .optimal, [0]⟩)
        (minimizeNewtonConstrained gradient hessian start (.family f) path options preconditioner)
        (do
          let smoother ← stagePreconditioner preconditioner t
          let x ← minimizeNewton gradient hessian start Region.everywhere options smoother
          Run.debug .centralPath fun _ => stageLine 1 t 0
          return x) := by
  have hscale : schedule.initialScale.toScalar = .ok t := by
    rwa [Options.initialScale_of_schedule hschedule] at ht
  have hfrom (stage : Stage ℝ σ) : followFrom stage (.family f) schedule preconditioner start =
      follow stage (.family f) schedule preconditioner
        (schedule.maxStages.roundsUntil - 1) [] w t := by
    rw [followFrom, hstart, hscale]
    rfl
  constructor
  · intro value gradient options
    have hread (smoother : Option (Tensor ℝ σ)) :
        minimizeConjugate (some value) gradient start options Region.everywhere smoother =
          minimizeConjugate (some value) gradient (.vector w) options Region.everywhere
            smoother := by
      rw [minimizeConjugate, Conjugate.Task.read, Minimize.Task.setUp_of_toVector hstart]
      rfl
    unfold minimizeConjugateConstrained
    rw [hschedule]
    simp only [hread]
    change Run.Related _ _ (followFrom _ _ _ _ _) _
    rw [hfrom]
    refine follow_related_of_empty hf (fun smoother => ?_) (Options.dualityGap_pos hschedule) _ _
    rw [conjugateStage_of_empty hf]
    exact .refl _
  · intro gradient hessian options
    have hread (smoother : Option (Tensor ℝ σ)) :
        minimizeNewton gradient hessian start Region.everywhere options smoother =
          minimizeNewton gradient hessian (.vector w) Region.everywhere options smoother := by
      rw [minimizeNewton, Newton.Task.read, Minimize.Task.setUp_of_toVector hstart]
      rfl
    unfold minimizeNewtonConstrained
    rw [hschedule]
    simp only [hread]
    change Run.Related _ _ (followFrom _ _ _ _ _) _
    rw [hfrom]
    exact follow_related_of_empty hf (newtonStage_related_of_empty hf gradient hessian options w t)
      (Options.dualityGap_pos hschedule) _ _

omit [RealText] in
/-- Half the square of the norm, minimized without constraints at the scale `2` with the identity as
the preconditioner. -/
theorem minimize_without_constraints_halfSquare :
    letI := RealText.mute
    let field : VectorField ℝ Unit := fun x => return .vector x
    let identity : Tensor ℝ Unit := .constant (.operator .identity)
    let nothing : Family ℝ Unit :=
      ⟨0, fun _ _ => throw .notApplicable, fun _ _ => throw .notApplicable, none, none⟩
    let path : CentralPath.Options ℝ :=
      ⟨.number (.whole 1), .number (.whole 2), .number (.whole 10), .number (.whole 3)⟩
    Run.Related Eq (fun c x => c = ⟨x, #[], 2, 0, 1, .optimal, [0]⟩)
      (minimizeNewtonConstrained field identity (.vector #[3, 4]) (.family nothing) path {}
        (some fun _ => return identity))
      (do
        let smoother ← stagePreconditioner (some fun _ => return identity) 2
        let x ← minimizeNewton field identity (.vector #[3, 4]) Region.everywhere {} smoother
        Run.debug .centralPath fun _ => stageLine 1 (2 : ℝ) 0
        return x) := by
  let _ := RealText.mute
  intro field identity nothing path
  have hschedule : path.schedule = .ok ⟨.whole 1, .whole 2, .whole 10, .whole 3⟩ := rfl
  have ht : path.initialScale.toNumber >>= Number.toScalar = .ok (2 : ℝ) := by
    change Except.ok ((2 : Int) : ℝ) = _
    norm_num
  exact (minimize_without_constraints (f := nothing) rfl hschedule ht rfl
    (some fun _ => return identity)).2 field identity {}

end Descent
