import Descent.Proofs.LinearSystem.Termination
import Descent.Proofs.Minimize.Callers
import Descent.Proofs.Minimize.Inner
import Descent.Proofs.Ray.Samples

/-!
# Truncated Newton steps on convex quadratics

With the gradient `T x - b`, a positive definite second derivative `T`, a preconditioner that is
absent or positive definite and no domain, an inner solve that may use as many iterations as there
are unknowns meets its tolerance. The residual it leaves is the gradient at the end of the full step
and is orthogonal to that step. So the search along the step finds a slope of zero at once, and the
gradient shrinks by the factor that the inner solve was asked for.

* `Newton.Solves`: what the inner solve returns;
* `Newton.direction_ensures`, `Newton.search_yields`, `Newton.leg_ensures`: one outer iteration;
  `Newton.WholeStep`: what all of them come to;
* `Newton.iterate_ensures`: outer iterations until the gradient is small;
* `minimizeNewton_quadratic`: minimizations for callers.
-/

open scoped InnerProductSpace

namespace Descent

namespace Newton

variable {σ : Type} {n : Nat} {I : Invariant ℝ σ} {T : Vec ℝ n →ₗ[ℝ] Vec ℝ n} {b : Vec ℝ n}
  {M : Vec ℝ n → Vec ℝ n →ₗ[ℝ] Vec ℝ n} {problem : Problem ℝ σ n} {rule : Rule ℝ}
  {s : State ℝ n} {step : Vec ℝ n}

/-- A convex quadratic without a domain: its gradient is `T x - b` and its second derivative `T`;
the preconditioner acts as `M x`. -/
structure Problem.Quadratic (I : Invariant ℝ σ) (problem : Problem ℝ σ n)
    (T : Vec ℝ n →ₗ[ℝ] Vec ℝ n) (b : Vec ℝ n) (M : Vec ℝ n → Vec ℝ n →ₗ[ℝ] Vec ℝ n) : Prop
    extends Problem.Acts I problem (fun _ => T) M where
  gradient : ∀ x, (problem.gradient x).Yields I (T x - b)
  outside : ∀ x, (problem.outside x).Yields I false
  definite : LinearSystem.PositiveDefinite T
  preconditioner_definite : ∀ x, LinearSystem.PositiveDefinite (M x)

/-- Parameters within their bounds, with a cap on inner iterations that allows one for every
unknown. -/
structure Rule.Valid (rule : Rule ℝ) (n : Nat) : Prop where
  unknowns_le : n ≤ rule.innerBudget
  forcing : 0 < rule.forcing ∧ rule.forcing < 1
  threshold_pos : 0 < rule.threshold
  damping : 0 < rule.damping ∧ rule.damping < 1

/-! ## The inner solve -/

/-- A truncated step that solves the Newton system to the tolerance asked for. -/
structure Solves (T : Vec ℝ n →ₗ[ℝ] Vec ℝ n) (rule : Rule ℝ) (g step : Vec ℝ n) : Prop
    extends LinearSystem.Truncated T g step where
  small : ‖g + T step‖ < min rule.forcing √‖g‖ * ‖g‖

namespace Solves

variable {g : Vec ℝ n}

theorem norm_lt (h : Solves T rule g step) : ‖g + T step‖ < rule.forcing * ‖g‖ :=
  h.small.trans_le (mul_le_mul_of_nonneg_right (min_le_left _ _) (norm_nonneg g))

theorem ne_zero (h : Solves T rule g step) (hrule : rule.Valid n) : step ≠ 0 := by
  rintro rfl
  have hnorm := h.norm_lt
  rw [map_zero, add_zero] at hnorm
  nlinarith [norm_nonneg g, hrule.forcing.2]

end Solves

variable [RealText]

theorem innerTolerance_eq (rule : Rule ℝ) (g : Vec ℝ n) :
    innerTolerance rule g = min rule.forcing √‖g‖ * ‖g‖ := by
  have hmin : Scalar.atMost rule.forcing √‖g‖ = min rule.forcing √‖g‖ := by
    rw [Scalar.atMost]
    split
    · rw [min_eq_right (le_of_lt ‹_›)]
    · rw [min_eq_left (not_lt.1 ‹_›)]
  exact congrArg (· * ‖g‖) hmin

theorem inner_solves (h : problem.Quadratic I T b M) (hrule : rule.Valid n)
    (hne : s.gradient ≠ 0) {smoother : Option (LinearMap ℝ σ n)}
    (hsmoother : Smooths I smoother (M s.point)) :
    (inner problem rule smoother s).Ensures I fun report =>
      Solves T rule s.gradient report.point := by
  have hM := h.preconditioner_definite s.point
  refine (inner_ensures h.toActs rule h.definite.symmetric hM.symmetric hsmoother).mono ?_
  rintro report ⟨c, rfl, htraced⟩
  have hpos : 0 < ‖s.gradient‖ := norm_pos_iff.2 hne
  have htolerance : 0 < innerTolerance rule s.gradient := by
    rw [innerTolerance_eq]
    exact mul_pos (lt_min hrule.forcing.1 (Real.sqrt_pos.2 hpos)) hpos
  have hmeets := htraced.meets_of_unknowns h.definite hM htolerance le_rfl hrule.unknowns_le
  have hsmall := hmeets.norm_lt
  rw [innerTolerance_eq, sub_neg_eq_add, add_comm] at hsmall
  exact ⟨htraced.truncated h.definite.symmetric, hsmall⟩

/-! ## One outer iteration -/

/-- The direction is the Newton step. -/
theorem direction_ensures (h : problem.Quadratic I T b M) (hrule : rule.Valid n)
    (hne : s.gradient ≠ 0) {smoother : Option (LinearMap ℝ σ n)}
    (hsmoother : Smooths I smoother (M s.point)) :
    (direction problem rule smoother s).Ensures I fun d =>
      d.isNewton = true ∧ Solves T rule s.gradient d.step := by
  rw [direction_eq]
  refine .bind (inner_solves h hrule hne hsmoother) fun report hsolves => ?_
  exact .of_yields (choose_newton hsolves.toTruncated (hsolves.ne_zero hrule)) ⟨rfl, hsolves⟩

omit [RealText] in
theorem gradient_add (hs : s.gradient = T s.point - b) (step : Vec ℝ n) :
    T (s.point + step) - b = s.gradient + T step := by
  rw [hs, map_add]
  abel

omit [RealText] in
/-- The slope vanishes at the end of the step, so the search ends there after one evaluation. -/
theorem search_yields (h : problem.Quadratic I T b M) (hrule : rule.Valid n)
    (hs : s.gradient = T s.point - b) (hsolves : Solves T rule s.gradient step) :
    (Ray.search (Ray.through problem.gradient problem.outside s.point step)
      ⟨rule.threshold, 1, rule.damping, rounds⟩ (some (Vec.dot s.gradient step))).Yields I
        ⟨1, 1⟩ := by
  have hslope : Vec.dot s.gradient step < 0 := hsolves.slope_neg_iff.2 (hsolves.ne_zero hrule)
  have hend : Vec.dot (T (Vec.along s.point 1 step) - b) step = 0 := by
    rw [Vec.along_eq, one_smul, gradient_add hs]
    exact hsolves.slope_end
  refine Ray.search_yields_start ?_ (Nat.succ_pos _) hslope (h.outside _)
    (.bind (h.gradient _) .pure) rfl ?_
  · simp [Ray.Rule.check, demand, hrule.threshold_pos, hrule.damping]
    rfl
  · rw [hend]
    simp only [Scalar.abs, abs_zero]
    exact mul_nonneg hrule.threshold_pos.le (abs_nonneg _)

theorem attempt_yields (h : problem.Quadratic I T b M) (hrule : rule.Valid n)
    (hs : s.gradient = T s.point - b) (hsolves : Solves T rule s.gradient step) :
    (attempt problem rule s step).Yields I ⟨s.point + step, true, 1⟩ := by
  have hpoint : Vec.along s.point 1 step = s.point + step := by
    rw [Vec.along_eq, one_smul]
  have hmoved : (!((1 : ℝ) == 0 || Vec.along s.point 1 step == s.point)) = true := by
    have hne := hsolves.ne_zero hrule
    rw [hpoint]
    simpa using hne
  refine .bind (search_yields h hrule hs hsolves) ?_
  dsimp only
  rw [hmoved, hpoint]
  exact .pure

/-- **An outer iteration takes the full Newton step.** -/
theorem leg_ensures (h : problem.Quadratic I T b M) (hrule : rule.Valid n)
    (hs : s.gradient = T s.point - b) (hne : s.gradient ≠ 0) :
    (leg problem rule s).Ensures I fun r => ∃ step, Solves T rule s.gradient step ∧
      r = .accepted ⟨s.point + step, T (s.point + step) - b, s.iterations + 1,
        s.evaluations + 1 + 1⟩ := by
  refine .bind (h.precondition s.point) fun smoother hsmoother => ?_
  refine .bind (direction_ensures h hrule hne hsmoother) fun d hd => ?_
  refine .bind (.of_yields (attempt_yields h hrule hs hd.2) rfl) fun first hfirst => ?_
  subst hfirst
  rw [if_pos rfl]
  exact .of_yields (.bind (h.gradient _) .pure) ⟨d.step, hd.2, rfl⟩

/-! ## Outer iterations -/

/-- A small gradient ends the run at once. -/
theorem iterate_yields_small {tolerance : ℝ}
    (hstop : ∀ g k, (problem.stop g k).Yields I (decide (‖g‖ < tolerance)))
    (hsmall : ‖s.gradient‖ < tolerance) (budget : Nat) :
    (iterate problem rule budget s).Yields I (s.report .criterion) := by
  have hmet : (problem.stop s.gradient s.iterations).Yields I true := by
    rw [← decide_eq_true hsmall]
    exact hstop _ _
  cases budget with
  | zero => exact .bind hmet .pure
  | succ budget => exact .bind hmet .pure

/-- A run ends within `count` iterations if the gradient is small, or will be after as many steps
that shrink it by the forcing term. -/
theorem iterate_ensures (h : problem.Quadratic I T b M) (hrule : rule.Valid n) {tolerance : ℝ}
    (htolerance : 0 < tolerance)
    (hstop : ∀ g k, (problem.stop g k).Yields I (decide (‖g‖ < tolerance))) :
    ∀ (budget count : Nat) (s : State ℝ n), s.gradient = T s.point - b → count ≤ budget →
      (‖s.gradient‖ < tolerance ∨
        1 ≤ count ∧ rule.forcing ^ count * ‖s.gradient‖ ≤ tolerance) →
      (iterate problem rule budget s).Ensures I fun report => report.exit = .criterion ∧
        report.iterations ≤ s.iterations + count ∧ report.gradient = T report.point - b ∧
          ‖report.gradient‖ < tolerance := by
  intro budget
  induction budget with
  | zero =>
    intro count s hs hcount hsmall
    have hnorm : ‖s.gradient‖ < tolerance := hsmall.resolve_right fun hlater => by omega
    exact .of_yields (iterate_yields_small hstop hnorm 0) ⟨rfl, Nat.le_add_right _ _, hs, hnorm⟩
  | succ budget ih =>
    intro count s hs hcount hsmall
    by_cases hnorm : ‖s.gradient‖ < tolerance
    · exact .of_yields (iterate_yields_small hstop hnorm (budget + 1))
        ⟨rfl, Nat.le_add_right _ _, hs, hnorm⟩
    · obtain ⟨hpos, hlater⟩ := hsmall.resolve_left hnorm
      obtain ⟨count, rfl⟩ := Nat.exists_eq_add_of_le' hpos
      have hne : s.gradient ≠ 0 := by
        intro hzero
        rw [hzero, norm_zero] at hnorm
        exact hnorm htolerance
      have hgoes : (problem.stop s.gradient s.iterations).Ensures I (· = false) :=
        .of_yields (hstop _ _) (decide_eq_false hnorm)
      refine hgoes.bind fun holds hholds => ?_
      rw [hholds, if_neg Bool.false_ne_true]
      refine .bind (leg_ensures h hrule hs hne) ?_
      rintro _ ⟨step, hsolves, rfl⟩
      -- the gradient after the step is the residual of the inner solve
      have hshrunk : ‖T (s.point + step) - b‖ < rule.forcing * ‖s.gradient‖ := by
        rw [gradient_add hs]
        exact hsolves.norm_lt
      have hnext : ‖T (s.point + step) - b‖ < tolerance ∨
          1 ≤ count ∧ rule.forcing ^ count * ‖T (s.point + step) - b‖ ≤ tolerance := by
        rcases Nat.eq_zero_or_pos count with rfl | hcount
        · left
          rw [Nat.zero_add, pow_one] at hlater
          exact hshrunk.trans_le hlater
        · right
          refine ⟨hcount, le_trans ?_ hlater⟩
          rw [pow_succ, mul_assoc]
          exact mul_le_mul_of_nonneg_left hshrunk.le (pow_nonneg hrule.forcing.1.le count)
      refine (ih count _ rfl (Nat.le_of_succ_le_succ hcount) hnext).mono ?_
      rintro report ⟨hexit, hiterations, hgradient, hsmall⟩
      exact ⟨hexit, by simp only at hiterations; omega, hgradient, hsmall⟩

/-! ## Minimizations of what callers give -/

section

variable {gradient : VectorField ℝ σ} {hessian : Tensor ℝ σ} {start : Datum ℝ}
  {outside : Region ℝ σ} {options : Options ℝ σ} {preconditioner : Option (Tensor ℝ σ)}
  {task : Task ℝ σ} {settings : Settings ℝ σ}

/-- A cap on inner iterations that is missing or not below the number of unknowns makes the
parameters valid. -/
theorem Options.rule_valid (h : options.settings = .ok settings)
    (hcap : ∀ cap ∈ options.innerMaxIterations.given?, ∀ m, cap.toNumber = .ok m →
      m.isBelow n = false) : (settings.rule n).Valid n := by
  obtain ⟨-, hinner, hforcing, hthreshold, hdamping, -⟩ := Options.settings_eq_ok h
  refine ⟨?_, Datum.mem_unit_of_insistInUnit hforcing,
    (Datum.mem_unit_of_insistInUnit hthreshold).1, Datum.mem_unit_of_insistInUnit hdamping⟩
  cases hgiven : options.innerMaxIterations.given? with
  | none =>
    rw [hgiven] at hinner
    obtain hmissing : settings.innerMaxIterations = none := (Except.ok.inj hinner).symm
    rw [Settings.rule, hmissing]
    exact le_max_left n 1
  | some cap =>
    rw [hgiven] at hinner
    obtain ⟨m, hm, hinner⟩ := Fault.bind_eq_ok hinner
    obtain hset : settings.innerMaxIterations = some m := (Except.ok.inj hinner).symm
    rw [Settings.rule, hset]
    exact Number.le_roundsBelow (hcap cap hgiven m (Datum.toNumber_of_insist hm))

theorem Task.quadratic_of_read
    (hread : Task.read gradient hessian start outside options preconditioner = .ok task)
    {T : Vec ℝ task.unknowns →ₗ[ℝ] Vec ℝ task.unknowns} {b : Vec ℝ task.unknowns}
    {M : Vec ℝ task.unknowns → Vec ℝ task.unknowns →ₗ[ℝ] Vec ℝ task.unknowns}
    (hT : LinearSystem.PositiveDefinite T) (hM : ∀ x, LinearSystem.PositiveDefinite (M x))
    (hgradient : ∀ x, (gradient.valueAt "gradient" x).Yields I (T x - b))
    (hhessian : hessian.ActsAs I fun _ => T) (hP : Tensor.PreconditionsAs I preconditioner M)
    (houtside : ∀ x, (outside x).Yields I false) : task.problem.Quadratic I T b M := by
  have hacts := Task.acts_of_read hread hhessian hP
  obtain ⟨_, -, -, hproblem, -⟩ := Minimize.Task.setUp_eq_ok hread
  rw [hproblem] at hacts ⊢
  exact ⟨hacts, hgradient, fun x => houtside x.toArray, hT, hM⟩

end

/-- An outer iteration that takes its Newton step whole. The direction is the Newton step and not
the steepest descent; the search along it accepts the full length after one evaluation, and so does
the first attempt; the next gradient is smaller by the factor that was asked for. -/
structure WholeStep (I : Invariant ℝ σ) (problem : Problem ℝ σ n) (rule : Rule ℝ)
    (T : Vec ℝ n →ₗ[ℝ] Vec ℝ n) (b : Vec ℝ n) (s : State ℝ n) : Prop where
  direction : (problem.precondition s.point).Ensures I fun smoother =>
    (direction problem rule smoother s).Ensures I fun d => d.isNewton = true ∧
      (Ray.search (Ray.through problem.gradient problem.outside s.point d.step)
        ⟨rule.threshold, 1, rule.damping, rounds⟩ (some (Vec.dot s.gradient d.step))).Yields I
          ⟨1, 1⟩ ∧
      (attempt problem rule s d.step).Yields I ⟨s.point + d.step, true, 1⟩
  leg : (leg problem rule s).Ensures I fun r => ∃ point,
    r = .accepted ⟨point, T point - b, s.iterations + 1, s.evaluations + 1 + 1⟩ ∧
      ‖T point - b‖ < min rule.forcing √‖T s.point - b‖ * ‖T s.point - b‖

theorem wholeStep (h : problem.Quadratic I T b M) (hrule : rule.Valid n)
    (hs : s.gradient = T s.point - b) (hne : s.gradient ≠ 0) : WholeStep I problem rule T b s where
  direction := by
    refine (h.precondition s.point).mono fun smoother hsmoother => ?_
    refine (direction_ensures h hrule hne hsmoother).mono fun d hd => ?_
    exact ⟨hd.1, search_yields h hrule hs hd.2, attempt_yields h hrule hs hd.2⟩
  leg := by
    refine (leg_ensures h hrule hs hne).mono ?_
    rintro _ ⟨step, hsolves, rfl⟩
    refine ⟨s.point + step, rfl, ?_⟩
    rw [gradient_add hs, ← hs]
    exact hsolves.small

end Newton

open Newton in
/-- **Truncated Newton steps on convex quadratics.** The gradient is `T x - b` with `T` positive
definite, the preconditioner is absent or positive definite, there is no domain, and inner solves
may use as many iterations as there are unknowns. Then every outer iteration takes its Newton step
whole. A run that is to end at a gradient norm ends there after at most `count` iterations, for
every positive `count` within its budget after which the forcing term has made the gradient small.
-/
theorem minimizeNewton_quadratic {σ : Type} [RealText] {I : Invariant ℝ σ}
    {gradient : VectorField ℝ σ} {hessian : Tensor ℝ σ} {start : Datum ℝ} {outside : Region ℝ σ}
    {options : Options ℝ σ} {preconditioner : Option (Tensor ℝ σ)} {task : Task ℝ σ}
    (hread : Task.read gradient hessian start outside options preconditioner = .ok task)
    {T : Vec ℝ task.unknowns →ₗ[ℝ] Vec ℝ task.unknowns} {b : Vec ℝ task.unknowns}
    {M : Vec ℝ task.unknowns → Vec ℝ task.unknowns →ₗ[ℝ] Vec ℝ task.unknowns}
    (hT : LinearSystem.PositiveDefinite T) (hM : ∀ x, LinearSystem.PositiveDefinite (M x))
    (hgradient : ∀ x, (gradient.valueAt "gradient" x).Yields I (T x - b))
    (hhessian : hessian.ActsAs I fun _ => T) (hP : Tensor.PreconditionsAs I preconditioner M)
    (houtside : ∀ x, (outside x).Yields I false)
    (hcap : ∀ cap ∈ options.innerMaxIterations.given?, ∀ m, cap.toNumber = .ok m →
      m.isBelow task.unknowns = false) :
    (∀ s : State ℝ task.unknowns, s.gradient = T s.point - b → s.gradient ≠ 0 →
      WholeStep I task.problem task.rule T b s) ∧
    ∀ tolerance, 0 < tolerance → options.stop.toCriterion = .ok (.gradientNorm tolerance) →
    ∀ count, 1 ≤ count →
      (∀ m, options.maxIterations.toNumber = .ok m → m.isBelow count = false) →
      task.rule.forcing ^ count * ‖T task.start - b‖ ≤ tolerance →
      ((solve task.problem task.rule task.budget task.start).Ensures I fun report =>
        report.exit = .criterion ∧ report.iterations ≤ count ∧ ‖T report.point - b‖ < tolerance) ∧
      (minimizeNewton gradient hessian start outside options preconditioner).Ensures I fun y =>
        ∃ x : Vec ℝ task.unknowns, y = x.toArray ∧ ‖T x - b‖ < tolerance := by
  have h := Task.quadratic_of_read hread hT hM hgradient hhessian hP houtside
  obtain ⟨settings, hsettings, -, hproblem, hset, hbudget⟩ := Minimize.Task.setUp_eq_ok hread
  have hrule : task.rule.Valid task.unknowns := by
    rw [hset]
    exact Options.rule_valid hsettings hcap
  refine ⟨fun s hs hne => wholeStep h hrule hs hne, ?_⟩
  intro tolerance htolerance hstop count hcount hmax hsmall
  have hends (g : Vec ℝ task.unknowns) (k : Nat) :
      (task.problem.stop g k).Yields I (decide (‖g‖ < tolerance)) := by
    have hmeans : settings.stop = .gradientNorm tolerance :=
      Except.ok.inj ((Options.settings_eq_ok hsettings).stop.symm.trans hstop)
    rw [hproblem, hmeans]
    exact .pure
  have hrounds : count ≤ task.budget := by
    rw [hbudget]
    refine Number.le_roundsUntil (hmax _ ?_)
    exact Datum.toNumber_of_insist (Options.settings_eq_ok hsettings).maxIterations
  have hsolve : (solve task.problem task.rule task.budget task.start).Ensures I fun report =>
      report.exit = .criterion ∧ report.iterations ≤ count ∧ ‖T report.point - b‖ < tolerance := by
    refine .bind (.of_yields (h.gradient task.start) rfl) fun g hg => ?_
    subst hg
    refine (iterate_ensures h hrule htolerance hends task.budget count _ rfl hrounds
      (.inr ⟨hcount, hsmall⟩)).mono ?_
    rintro report ⟨hexit, hiterations, hgradient, hnorm⟩
    rw [hgradient] at hnorm
    exact ⟨hexit, by simpa using hiterations, hnorm⟩
  refine ⟨hsolve, ?_⟩
  refine .bind (.of_yields (.ofExcept hread) rfl) fun _ htask => ?_
  subst htask
  refine hsolve.bind fun report hreport => ?_
  exact .bind (.of_yields .debug rfl) fun _ _ => .pure ⟨report.point, rfl, hreport.2.2⟩

/-! ## Two unknowns -/

/-- The gradient of a quadratic whose second derivative is diagonal. -/
noncomputable def diagonalField (factors rhs : Array ℝ) : VectorField ℝ Unit :=
  fun x => return .vector (.zipWith (· - ·) (.zipWith (· * ·) factors x) rhs)

open LinearSystem in
/-- Three iterations find the minimum of `x² + 2 y² - 2 x - 4 y` from zero up to a gradient norm of
one, because each of them at least halves the gradient. -/
theorem minimizeNewton_diagonalField :
    letI := RealText.mute
    (minimizeNewton (diagonalField #[2, 4] #[2, 4]) (.constant (.operator (.diagonal #[2, 4])))
      (.vector #[0, 0]) Region.everywhere { stop := .criterion (.gradientNorm 1) }
      (some (.constant (.operator (.diagonal #[1, 2]))))).Ensures Invariant.none fun y =>
        ∃ x : Vec ℝ 2, y = x.toArray ∧ ‖diagonalMap #v[2, 4] x - #v[2, 4]‖ < 1 := by
  let _ := RealText.mute
  have hT : PositiveDefinite (diagonalMap #v[2, 4]) := positiveDefinite_diagonalMap (by simp)
  have hM : PositiveDefinite (diagonalMap #v[1, 2]) := positiveDefinite_diagonalMap (by simp)
  have hA := actsAs_diagonal (σ := Unit) Invariant.none #[2, 4]
  have hP := actsAs_diagonal (σ := Unit) Invariant.none #[1, 2]
  have hread := Newton.Task.read_of_settings (σ := Unit) (Newton.settings_default (.gradientNorm 1))
    (diagonalField #[2, 4] #[2, 4]) (.constant (.operator (.diagonal #[2, 4]))) Region.everywhere
    (some (.constant (.operator (.diagonal #[1, 2])))) #[0, 0]
  have hgradient (x : Vec ℝ 2) : ((diagonalField #[2, 4] #[2, 4]).valueAt "gradient" x).Yields
      Invariant.none (diagonalMap #v[2, 4] x - #v[2, 4]) :=
    .bind .pure (.ofExcept (Datum.toVec_vector _ (diagonalMap #v[2, 4] x - #v[2, 4])))
  have hruns := minimizeNewton_quadratic hread hT (fun _ => hM) hgradient
    (Tensor.actsAs_constant hA) (Tensor.actsAs_constant hP) (fun _ => .pure)
    (fun _ hcap => by cases hcap)
  refine (hruns.2 1 one_pos rfl 3 (by omega) ?_ ?_).2
  · intro m hm
    cases hm
    rfl
  · have hsq : ‖diagonalMap #v[2, 4] #v[0, 0] - #v[2, 4]‖ ^ 2 = 20 := by
      rw [← real_inner_self_eq_norm_sq, ← Vec.dot_eq_inner, Vec.dot_eq_sum]
      simp [diagonalMap, Vec.times, Fin.sum_univ_two]
      norm_num
    have hstart : ‖diagonalMap #v[2, 4] #v[0, 0] - #v[2, 4]‖ ≤ 8 :=
      (sq_le_sq₀ (norm_nonneg _) (by norm_num)).1 (by rw [hsq]; norm_num)
    change (0.5 : ℝ) ^ 3 * ‖diagonalMap #v[2, 4] #v[0, 0] - #v[2, 4]‖ ≤ 1
    norm_num
    linarith

end Descent
