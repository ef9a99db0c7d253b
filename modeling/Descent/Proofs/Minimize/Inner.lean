import Descent.Proofs.Exact.Number
import Descent.Proofs.LinearSystem.Truncated
import Descent.Proofs.Minimize.Reading

/-!
# The inner solve of a Newton step

What a truncated Newton step is made of when scalars are exact real numbers and the second
derivatives and the preconditioner act as symmetric linear maps, which need not be definite.

* `Newton.inner`, `Newton.choose`: the inner solve and the choice that follows it;
  `Newton.direction_eq`: together they are the direction of a step;
* `Newton.inner_ensures`: the inner solve ends with a record of the method;
* `Newton.choose_newton`, `Newton.choose_steepest`: the Newton step is taken unless it is zero, and
  gives way to the steepest descent if it is;
* `inner_solve_descends`: solves from zero, and the inner solves of a minimization, return a
  direction of descent or zero.
-/

open scoped InnerProductSpace

namespace Descent

/-! ## Operators that depend on the point -/

section

variable {σ : Type} [RealText] {n : Nat}

/-- The operators of a tensor act at every point `x` as `H x`. -/
def Tensor.ActsAs (I : Invariant ℝ σ) (tensor : Tensor ℝ σ)
    (H : Vec ℝ n → Vec ℝ n →ₗ[ℝ] Vec ℝ n) : Prop :=
  ∀ x : Vec ℝ n, (tensor.operatorAt x).Ensures I fun op => ∀ v, (op.apply v).Yields I (H x v)

/-- A preconditioner that acts at every point `x` as `M x`; without one gradients stay what they
are. -/
def Tensor.PreconditionsAs (I : Invariant ℝ σ) (preconditioner : Option (Tensor ℝ σ))
    (M : Vec ℝ n → Vec ℝ n →ₗ[ℝ] Vec ℝ n) : Prop :=
  match preconditioner with
  | none => ∀ x r, M x r = r
  | some tensor => tensor.ActsAs I M

end

namespace Newton

/-! ## The parts of a step -/

section

variable {α σ : Type} [Numeral α] {n : Nat}

/-- The inner solve at a state. -/
def inner (problem : Problem α σ n) (rule : Rule α) (smoother : Option (LinearMap α σ n))
    (s : State α n) : Run α σ (LinearSystem.Report α n) := do
  let hessian ← problem.hessian s.point
  LinearSystem.run ⟨hessian, smoother⟩ (-s.gradient) (Vec.zeros n)
    (innerTolerance rule s.gradient) rule.innerBudget

/-- The step that is taken at a gradient after the inner solve. -/
def choose (smoother : Option (LinearMap α σ n)) (g : Vec α n)
    (report : LinearSystem.Report α n) : Run α σ (Direction α n) := do
  if Vec.dot g report.point < 0 then return ⟨report.point, true⟩
  else return ⟨← steepest smoother g, false⟩

/-- A direction is chosen after the inner solve. -/
theorem direction_eq (problem : Problem α σ n) (rule : Rule α)
    (smoother : Option (LinearMap α σ n)) (s : State α n) :
    direction problem rule smoother s =
      inner problem rule smoother s >>= choose smoother s.gradient := by
  rw [direction, inner, bind_assoc]
  rfl

end

variable {σ : Type} {n : Nat} {I : Invariant ℝ σ}

/-- The map of a preconditioner acts as `M`; without one gradients stay what they are. -/
def Smooths (I : Invariant ℝ σ) (smoother : Option (LinearMap ℝ σ n))
    (M : Vec ℝ n →ₗ[ℝ] Vec ℝ n) : Prop :=
  match smoother with
  | none => ∀ r, M r = r
  | some map => ∀ r, (map r).Yields I (M r)

/-- A problem whose second derivatives act as `H x` and whose preconditioner acts as `M x`. -/
structure Problem.Acts (I : Invariant ℝ σ) (problem : Problem ℝ σ n)
    (H M : Vec ℝ n → Vec ℝ n →ₗ[ℝ] Vec ℝ n) : Prop where
  hessian : ∀ x, (problem.hessian x).Ensures I fun map => ∀ v, (map v).Yields I (H x v)
  precondition : ∀ x, (problem.precondition x).Ensures I fun smoother => Smooths I smoother (M x)

theorem Smooths.acts {smoother : Option (LinearMap ℝ σ n)} {map : LinearMap ℝ σ n}
    {T M : Vec ℝ n →ₗ[ℝ] Vec ℝ n} (hM : Smooths I smoother M)
    (hT : ∀ v, (map v).Yields I (T v)) : LinearSystem.System.Acts I ⟨map, smoother⟩ T M := by
  refine ⟨hT, fun r => ?_⟩
  cases smoother with
  | none => exact (hM r).symm ▸ .pure
  | some smooth => exact hM r

variable [RealText] {problem : Problem ℝ σ n} {H M : Vec ℝ n → Vec ℝ n →ₗ[ℝ] Vec ℝ n}
  {smoother : Option (LinearMap ℝ σ n)} {s : State ℝ n}

theorem steepest_yields {M : Vec ℝ n →ₗ[ℝ] Vec ℝ n} (hM : Smooths I smoother M) (g : Vec ℝ n) :
    (steepest smoother g).Yields I (-M g) := by
  cases smoother with
  | none =>
    rw [show M g = g from hM g]
    exact .pure
  | some map => exact .bind (hM g) .pure

/-- The inner solve ends with a record of the method for what acts at the state. -/
theorem inner_ensures_at {T M : Vec ℝ n →ₗ[ℝ] Vec ℝ n} (rule : Rule ℝ) (hT : T.IsSymmetric)
    (hM : M.IsSymmetric)
    (hhessian : (problem.hessian s.point).Ensures I fun map => ∀ v, (map v).Yields I (T v))
    (hsmoother : Smooths I smoother M) :
    (inner problem rule smoother s).Ensures I fun report =>
      ∃ c : LinearSystem.Course ℝ n, report = c.report 0 ∧
        c.Traced T M (-s.gradient) 0 (innerTolerance rule s.gradient) rule.innerBudget := by
  refine .bind hhessian fun map hmap => ?_
  obtain ⟨c, hc, htraced⟩ := LinearSystem.courseFrom_yields hT hM (hsmoother.acts hmap)
    (-s.gradient) 0 (innerTolerance rule s.gradient) rule.innerBudget
  exact .of_yields (LinearSystem.run_yields hc) ⟨c, rfl, htraced⟩

/-- **The inner solve ends with a record of the method** for the second derivative and the gradient
at the state. -/
theorem inner_ensures (h : problem.Acts I H M) (rule : Rule ℝ)
    (hH : (H s.point).IsSymmetric) (hM : (M s.point).IsSymmetric)
    (hsmoother : Smooths I smoother (M s.point)) :
    (inner problem rule smoother s).Ensures I fun report =>
      ∃ c : LinearSystem.Course ℝ n, report = c.report 0 ∧
        c.Traced (H s.point) (M s.point) (-s.gradient) 0 (innerTolerance rule s.gradient)
          rule.innerBudget :=
  inner_ensures_at rule hH hM (h.hessian s.point) hsmoother

section

variable {T : Vec ℝ n →ₗ[ℝ] Vec ℝ n} {g : Vec ℝ n} {report : LinearSystem.Report ℝ n}

/-- A truncated solution of the Newton system is taken unless it is zero. -/
theorem choose_newton (h : LinearSystem.Truncated T g report.point) (hne : report.point ≠ 0) :
    (choose smoother g report).Yields I ⟨report.point, true⟩ := by
  have hdescends : Vec.dot g report.point < 0 := h.slope_neg_iff.2 hne
  rw [choose, if_pos hdescends]
  exact .pure

/-- If it is zero, the steepest descent is taken. -/
theorem choose_steepest {M : Vec ℝ n →ₗ[ℝ] Vec ℝ n} (hM : Smooths I smoother M)
    (h : LinearSystem.Truncated T g report.point) (hzero : report.point = 0) :
    (choose smoother g report).Yields I ⟨-M g, false⟩ := by
  have hflat : ¬Vec.dot g report.point < 0 := fun hneg => h.slope_neg_iff.1 hneg hzero
  rw [choose, if_neg hflat]
  exact .bind (steepest_yields hM g) .pure

end

/-! ## Problems that callers give -/

theorem smootherAt_ensures {preconditioner : Option (Tensor ℝ σ)}
    (h : Tensor.PreconditionsAs I preconditioner M) (x : Vec ℝ n) :
    (smootherAt preconditioner x).Ensures I fun smoother => Smooths I smoother (M x) := by
  cases preconditioner with
  | none => exact .pure (h x)
  | some tensor => exact .bind (h x) fun op hop => .pure hop

/-- A problem that was read from callers acts as they say. -/
theorem Task.acts_of_read {gradient : VectorField ℝ σ} {hessian : Tensor ℝ σ} {start : Datum ℝ}
    {outside : Region ℝ σ} {options : Options ℝ σ} {preconditioner : Option (Tensor ℝ σ)}
    {task : Task ℝ σ}
    (hread : Task.read gradient hessian start outside options preconditioner = .ok task)
    {H M : Vec ℝ task.unknowns → Vec ℝ task.unknowns →ₗ[ℝ] Vec ℝ task.unknowns}
    (hH : hessian.ActsAs I H) (hM : Tensor.PreconditionsAs I preconditioner M) :
    task.problem.Acts I H M := by
  obtain ⟨_, -, -, hproblem, -⟩ := Minimize.Task.setUp_eq_ok hread
  rw [hproblem]
  exact ⟨fun x => .bind (hH x) fun op hop => .pure hop, fun x => smootherAt_ensures hM x⟩

end Newton

/-- **Inner solves return a direction of descent or zero.** A solve of `T step = -g` from zero, with
a symmetric system and a preconditioner that is absent or symmetric, both perhaps indefinite,
returns a step that descends or is zero, and along which the curvature is positive unless it is
zero. Every step of a minimization by truncated Newton steps is chosen after such a solve: it is the
step that the solve returned if that is not zero, and the steepest descent if it is. -/
theorem inner_solve_descends {σ : Type} [RealText] (I : Invariant ℝ σ) :
    (∀ {A : OperatorLike ℝ σ} {b guess : Datum ℝ} {options : LinearSystem.Options ℝ}
      {maxIterations : Datum ℝ} {preconditioner : Option (OperatorLike ℝ σ)}
      {task : LinearSystem.Task ℝ σ},
      LinearSystem.Task.read A b guess options maxIterations preconditioner = .ok task →
      ∀ (T M : Vec ℝ task.unknowns →ₗ[ℝ] Vec ℝ task.unknowns), T.IsSymmetric → M.IsSymmetric →
      LinearSystem.ActsAs I A T → LinearSystem.PreconditionsAs I preconditioner M →
      ∀ g, task.rhs = -g → task.guess = 0 →
      ∃ step : Vec ℝ task.unknowns,
        (solveLinear A b guess options maxIterations preconditioner).Yields I step.toArray ∧
        LinearSystem.Descends T g step) ∧
    (∀ {gradient : VectorField ℝ σ} {hessian : Tensor ℝ σ} {start : Datum ℝ}
      {outside : Region ℝ σ} {options : Newton.Options ℝ σ} {preconditioner : Option (Tensor ℝ σ)}
      {task : Newton.Task ℝ σ},
      Newton.Task.read gradient hessian start outside options preconditioner = .ok task →
      ∀ (H M : Vec ℝ task.unknowns → Vec ℝ task.unknowns →ₗ[ℝ] Vec ℝ task.unknowns),
      (∀ x, (H x).IsSymmetric) → (∀ x, (M x).IsSymmetric) →
      hessian.ActsAs I H → Tensor.PreconditionsAs I preconditioner M →
      ∀ s : Newton.State ℝ task.unknowns,
      (task.problem.precondition s.point).Ensures I fun smoother =>
        Newton.direction task.problem task.rule smoother s =
          Newton.inner task.problem task.rule smoother s >>= Newton.choose smoother s.gradient ∧
        (Newton.inner task.problem task.rule smoother s).Ensures I fun report =>
          LinearSystem.Descends (H s.point) s.gradient report.point ∧
          (report.point ≠ 0 →
            (Newton.choose smoother s.gradient report).Yields I ⟨report.point, true⟩) ∧
          (report.point = 0 →
            (Newton.choose smoother s.gradient report).Yields I
              ⟨-M s.point s.gradient, false⟩)) := by
  constructor
  · intro A b guess options maxIterations preconditioner task hread T M hT hM hA hP g hrhs hguess
    obtain ⟨c, hc, htraced⟩ := LinearSystem.courseFrom_yields hT hM
      (LinearSystem.Task.acts_of_read hread hA hP) task.rhs task.guess task.tolerance task.budget
    rw [hrhs, hguess] at htraced
    exact ⟨c.point, LinearSystem.solveLinear_yields hread hc, (htraced.truncated hT).descends⟩
  · intro gradient hessian start outside options preconditioner task hread H M hH hM hA hP s
    have hacts := Newton.Task.acts_of_read hread hA hP
    refine (hacts.precondition s.point).mono fun smoother hsmoother => ?_
    refine ⟨Newton.direction_eq _ _ _ _, ?_⟩
    refine (Newton.inner_ensures hacts task.rule (hH s.point) (hM s.point) hsmoother).mono ?_
    rintro report ⟨c, rfl, htraced⟩
    have htruncated : LinearSystem.Truncated (H s.point) s.gradient (c.report 0).point :=
      htraced.truncated (hH s.point)
    exact ⟨htruncated.descends, Newton.choose_newton htruncated,
      Newton.choose_steepest hsmoother htruncated⟩

/-! ## An indefinite problem -/

/-- A fixed operator is the same map at every point. -/
theorem Tensor.actsAs_constant {σ : Type} [RealText] {n : Nat} {I : Invariant ℝ σ}
    {op : Operator ℝ σ} {T : Vec ℝ n →ₗ[ℝ] Vec ℝ n}
    (h : LinearSystem.ActsAs I (.operator op) T) :
    (Tensor.constant (.operator op)).ActsAs I fun _ => T :=
  fun _ => .pure (h op rfl)

/-- What callers do not set is within its bounds. -/
theorem Newton.settings_default {σ : Type} [RealText] (stop : Criterion ℝ σ) :
    ({ stop := .criterion stop } : Newton.Options ℝ σ).settings =
      .ok ⟨.whole 200, none, 0.5, 0.5, 0.5, stop⟩ := by
  have hhalf (name : String) : (Datum.number (.real 0.5)).insistInUnit name = .ok (0.5 : ℝ) :=
    Datum.insistInUnit_real (by norm_num) (by norm_num) name
  simp only [Newton.Options.settings, hhalf]
  rfl

/-- What is read from callers whose options and start are in order. -/
theorem Newton.Task.read_of_settings {α σ : Type} [Numeral α] {options : Newton.Options α σ}
    {settings : Newton.Settings α σ} (h : options.settings = .ok settings)
    (gradient : VectorField α σ) (hessian : Tensor α σ) (outside : Region α σ)
    (preconditioner : Option (Tensor α σ)) (w : Array α) :
    Newton.Task.read gradient hessian (.vector w) outside options preconditioner =
      .ok {
        unknowns := w.size
        problem :=
          { gradient := gradient.valueAt "gradient"
            hessian := Newton.hessianAt hessian
            precondition := Newton.smootherAt preconditioner
            outside := fun x => outside x.toArray
            stop := fun g count => settings.stop.holds g (.whole count) }
        rule := settings.rule w.size
        budget := settings.maxIterations.roundsUntil
        start := Vec.ofArray w } := by
  rw [Newton.Task.read, h]
  rfl

open LinearSystem in
/-- A solve and the steps of a minimization with an indefinite second derivative and an indefinite
preconditioner. -/
theorem inner_solve_descends_indefinite :
    letI := RealText.mute
    (∃ step : Vec ℝ 2,
      (solveLinear (σ := Unit) (.operator (.diagonal #[2, -1])) (.vector #[-1, -1]) .nothing
        { tolerance := .number (.whole 0) } .nothing
        (some (.operator (.diagonal #[1, -1])))).Yields Invariant.none step.toArray ∧
      Descends (diagonalMap #v[2, -1]) #v[1, 1] step) ∧
    ∃ task : Newton.Task ℝ Unit,
      Newton.Task.read (fun x => return .vector x) (.constant (.operator (.diagonal #[2, -1])))
        (.vector #[1, 1]) Region.everywhere {}
        (some (.constant (.operator (.diagonal #[1, -1])))) = .ok task ∧
      ∀ s : Newton.State ℝ task.unknowns,
        (task.problem.precondition s.point).Ensures Invariant.none fun smoother =>
          (Newton.inner task.problem task.rule smoother s).Ensures Invariant.none fun report =>
            ⟪s.gradient, report.point⟫_ℝ < 0 ∨ report.point = 0 := by
  let _ := RealText.mute
  have hT := diagonalMap_isSymmetric #v[2, -1]
  have hM := diagonalMap_isSymmetric #v[1, -1]
  have hA := actsAs_diagonal (σ := Unit) Invariant.none #[2, -1]
  have hP := actsAs_diagonal (σ := Unit) Invariant.none #[1, -1]
  obtain ⟨hsolve, hminimize⟩ := inner_solve_descends (σ := Unit) Invariant.none
  constructor
  · have hread : Task.read (σ := Unit) (.operator (.diagonal #[(2 : ℝ), -1])) (.vector #[-1, -1])
        .nothing { tolerance := .number (.whole 0) } .nothing
        (some (.operator (.diagonal #[1, -1]))) = .ok ⟨2, _, #v[-1, -1], 0, _, _⟩ := rfl
    have hrhs : (#v[-1, -1] : Vec ℝ 2) = -#v[1, 1] := by
      ext i hi
      obtain rfl | rfl : i = 0 ∨ i = 1 := by omega
      all_goals simp
    exact hsolve hread _ _ hT hM hA hP #v[1, 1] hrhs rfl
  · have hread := Newton.Task.read_of_settings (σ := Unit)
      (Newton.settings_default (.gradientNorm 1e-8))
      (fun x => return .vector x) (.constant (.operator (.diagonal #[2, -1]))) Region.everywhere
      (some (.constant (.operator (.diagonal #[1, -1])))) #[1, 1]
    refine ⟨_, hread, fun s => ?_⟩
    refine (hminimize hread (fun _ => diagonalMap #v[2, -1]) (fun _ => diagonalMap #v[1, -1])
      (fun _ => hT) (fun _ => hM) (Tensor.actsAs_constant hA) (Tensor.actsAs_constant hP)
      s).mono fun smoother hsmoother => ?_
    exact hsmoother.2.mono fun report hreport => hreport.1.slope

end Descent
