import Descent.Proofs.LinearSystem.Exact
import Descent.Proofs.LinearSystem.Krylov
import Descent.Proofs.Minimize.Comparison
import Descent.Proofs.Run.Image

/-!
# Shifted and scaled linear systems

Over the reals a solve is the same up to a shift or a factor. A guess only matters through its
residual: the solve for `b` from a guess is the solve for that residual from zero, moved by the
guess. And if the right-hand side, the guess and the tolerance are multiplied, so is the point found.

* `LinearSystem.System.Settles`: systems whose operators are functions; the preconditioner may
  refuse residuals;
* `LinearSystem.iterate_shift`, `LinearSystem.solve_shift`: the loop and the solve, shifted;
* `LinearSystem.step_scale`, `LinearSystem.solve_scale`: an iteration and the solve, scaled;
* `LinearSystem.solveLinear_covariant`: both, for callers.
-/

open scoped InnerProductSpace

namespace Descent

namespace Run

variable {α σ β γ : Type} {I : Invariant α σ} {on : Logging.Source → Bool} {run : Run α σ β}

/-- Two runs with outcomes in relation compare. -/
theorem Settles.compares_of {other : Run α σ γ} {R : β → γ → Prop} {b : β} {d : γ}
    (h : run.Settles I on (.ok b)) (hother : other.Settles I on (.ok d)) (hR : R b d) :
    (Comparison.apart I on).Compares R run other := by
  rintro s t ⟨hs, ht⟩
  obtain ⟨s', hs', hr⟩ := h s hs
  obtain ⟨t', ht', ho⟩ := hother t ht
  rw [hr, ho]
  exact ⟨⟨hs', ht'⟩, hR⟩

/-- A run that returns what a function makes of the result of another has the outcome that the
function makes of the outcome of the other. -/
theorem Settles.map_of_compares {other : Run α σ γ} {f : β → γ} {e : Except Fault β}
    (h : run.Settles I on e)
    (hother : (Comparison.apart I on).Compares (fun b d => d = f b) run other) :
    other.Settles I on (f <$> e) := by
  refine h.map.of_compares ?_
  rw [map_eq_pure_bind, ← bind_pure other]
  exact hother.bind fun b d hd => .pure hd.symm

/-- A run that does the same as one that compares with itself compares with it. -/
theorem Sends.compares {c : Comparison α σ} {other : Run α σ γ} {f : β → γ}
    (h : Sends f run other) (hself : c.Compares Eq run run) :
    c.Compares (fun b d => d = f b) run other := by
  rw [show other = f <$> run from h, map_eq_pure_bind]
  nth_rewrite 1 [← bind_pure run]
  refine hself.bind ?_
  rintro b _ rfl
  exact .pure rfl

end Run

/-- A common factor of dividend and divisor does not matter. -/
theorem Scalar.quotient_mul_left {c : ℝ} (hc : c ≠ 0) (a b : ℝ) :
    Scalar.quotient (c * a) (c * b) = Scalar.quotient a b := by
  by_cases hb : b = 0
  · rw [hb, mul_zero]
    simp [Scalar.quotient]
  · rw [Scalar.quotient_real hb, Scalar.quotient_real (mul_ne_zero hc hb),
      mul_div_mul_left _ _ hc]

namespace LinearSystem

variable {σ : Type} {n : Nat} {I : Invariant ℝ σ} {on : Logging.Source → Bool}
  {system : System ℝ σ n} {T M : Vec ℝ n →ₗ[ℝ] Vec ℝ n} {m : Vec ℝ n → Except Fault (Vec ℝ n)}

/-- A system that acts as `T`, preconditioned by the function `m`, which may refuse residuals. -/
structure System.Settles (I : Invariant ℝ σ) (on : Logging.Source → Bool) (system : System ℝ σ n)
    (T : Vec ℝ n →ₗ[ℝ] Vec ℝ n) (m : Vec ℝ n → Except Fault (Vec ℝ n)) : Prop where
  apply : ∀ v, (system.apply v).Settles I on (.ok (T v))
  smooth : ∀ r, (system.smooth r).Settles I on (m r)

theorem System.Settles.compare (h : system.Settles I on T m) :
    system.Compare (Comparison.apart I on) system where
  apply v := (h.apply v).compares (h.apply v)
  precondition := by
    obtain ⟨apply, precondition⟩ := system
    cases precondition with
    | none => exact .none
    | some map => exact .some fun r => (h.smooth r).compares (h.smooth r)

/-- Solves of such systems have outcomes. -/
theorem System.Settles.exists_solve (h : system.Settles I on T m) (b guess : Vec ℝ n)
    (tolerance : ℝ) (budget : Nat) :
    ∃ e, (solve system b guess tolerance budget).Settles I on e :=
  Run.exists_settles (solve_compares h.compare b guess tolerance budget)

/-! ## Shifts -/

/-- The state that is as far from another point. -/
noncomputable def State.shift (x : Vec ℝ n) (s : State ℝ n) : State ℝ n :=
  { s with point := x + s.point }

noncomputable def Step.shift (x : Vec ℝ n) : Step ℝ n → Step ℝ n
  | .refused => .refused
  | .last exit point residual => .last exit (x + point) residual
  | .next s => .next (s.shift x)

noncomputable def Report.shift (x : Vec ℝ n) (report : Report ℝ n) : Report ℝ n :=
  { report with point := x + report.point }

/-- An iteration does not look at its point. -/
theorem step_shift (system : System ℝ σ n) (tolerance : ℝ) (x : Vec ℝ n) (s : State ℝ n) :
    Run.Sends (Step.shift x) (step system tolerance s) (step system tolerance (s.shift x)) := by
  refine .after _ fun image => ?_
  refine .ite Iff.rfl (fun _ => .pure rfl) fun _ => ?_
  have halong (length : ℝ) :
      Vec.along (s.shift x).point length s.direction = x + Vec.along s.point length s.direction :=
    add_assoc x s.point _
  refine .ite Iff.rfl (fun _ => .pure ?_) fun _ => .after _ fun smoothed => ?_
  · exact congrArg (Step.last _ · _) (halong _)
  refine .ite Iff.rfl (fun _ => .pure ?_) fun _ => .after _ fun beta => .pure ?_
  · exact congrArg (Step.last _ · _) (halong _)
  · exact congrArg (fun point => Step.next ⟨point, _, _, _⟩) (halong _)

theorem iterate_shift (system : System ℝ σ n) (tolerance : ℝ) (x : Vec ℝ n) :
    ∀ budget completed s, Run.Sends (Report.shift x) (iterate system tolerance budget completed s)
      (iterate system tolerance budget completed (s.shift x)) := by
  intro budget
  induction budget with
  | zero => exact fun completed s => .pure rfl
  | succ budget ih =>
    intro completed s
    refine .bind (step_shift system tolerance x s) fun step => ?_
    cases step with
    | refused => exact .pure rfl
    | last exit point residual => exact .pure rfl
    | next t => exact ih (completed + 1) t

/-- **A guess only matters through its residual.** -/
theorem solve_shift (h : system.Settles I on T m) (b guess : Vec ℝ n) (tolerance : ℝ)
    (budget : Nat) {e : Except Fault (Report ℝ n)}
    (he : (solve system (b - T guess) 0 tolerance budget).Settles I on e) :
    (solve system b guess tolerance budget).Settles I on (Report.shift guess <$> e) := by
  refine he.map_of_compares (.bind ((h.apply 0).compares_of (h.apply guess)
    (R := fun image image' => b - T guess - image = b - image') ?_) fun image image' himage => ?_)
  · rw [map_zero, sub_zero]
  · have hstart : guess + 0 = guess := add_zero guess
    dsimp only
    rw [himage]
    refine .ite Iff.rfl (fun _ => .pure ?_) fun _ => ?_
    · rw [Report.shift, hstart]
    · refine .bind ((h.smooth _).compares (h.smooth _)) ?_
      rintro smoothed _ rfl
      refine Run.Sends.compares ?_ (iterate_compares h.compare tolerance budget 0 _)
      have hloop := iterate_shift system tolerance guess budget 0
        ⟨0, b - image', smoothed, Vec.dot (b - image') smoothed⟩
      rwa [State.shift, hstart] at hloop

/-! ## Factors -/

/-- All vectors of a state multiplied. -/
noncomputable def State.scale (c : ℝ) (s : State ℝ n) : State ℝ n where
  point := c • s.point
  residual := c • s.residual
  direction := c • s.direction
  product := c * c * s.product

noncomputable def Step.scale (c : ℝ) : Step ℝ n → Step ℝ n
  | .refused => .refused
  | .last exit point residual => .last exit (c • point) (c • residual)
  | .next s => .next (s.scale c)

noncomputable def Report.scale (c : ℝ) (report : Report ℝ n) : Report ℝ n :=
  { report with point := c • report.point, residual := c • report.residual }

variable {c : ℝ}

theorem dot_smul (c : ℝ) (u v : Vec ℝ n) : Vec.dot (c • u) (c • v) = c * c * Vec.dot u v := by
  rw [Vec.dot_eq_inner, real_inner_smul_left, real_inner_smul_right, ← mul_assoc]
  rfl

theorem norm_smul_lt_iff (hc : c ≠ 0) (v : Vec ℝ n) (tolerance : ℝ) :
    Vec.norm v < tolerance ↔ Vec.norm (c • v) < |c| * tolerance := by
  rw [Vec.norm_eq_norm, Vec.norm_eq_norm, norm_smul, Real.norm_eq_abs,
    mul_lt_mul_iff_right₀ (abs_pos.2 hc)]

theorem along_smul (c : ℝ) (x : Vec ℝ n) (length : ℝ) (d : Vec ℝ n) :
    Vec.along (c • x) length (c • d) = c • Vec.along x length d := by
  rw [Vec.along_eq, Vec.along_eq, smul_add, smul_comm]

theorem nonpos_iff_mul_nonpos {a : ℝ} (ha : 0 < a) (b : ℝ) : b ≤ 0 ↔ a * b ≤ 0 := by
  rw [← not_lt, ← not_lt, mul_pos_iff_of_pos_left ha]

/-- **An iteration takes the same branch** when everything is multiplied. -/
theorem step_scale (hc : c ≠ 0) (h : system.Settles I on T fun r => .ok (M r)) (tolerance : ℝ)
    (s : State ℝ n) : (Comparison.apart I on).Compares (fun r r' => r' = r.scale c)
      (step system tolerance s) (step system (|c| * tolerance) (s.scale c)) := by
  have hsquare : 0 < c * c := mul_self_pos.2 hc
  refine .bind ((h.apply s.direction).compares_of (h.apply (c • s.direction))
    (R := fun image image' => image' = c • image) (map_smul T c _)) ?_
  rintro image _ rfl
  have hcurvature : Vec.dot (s.scale c).direction (c • image) =
      c * c * Vec.dot s.direction image := dot_smul c _ _
  have hlength : c * c * s.product / (c * c * Vec.dot s.direction image) =
      s.product / Vec.dot s.direction image := mul_div_mul_left _ _ hsquare.ne'
  have hflat : Vec.dot s.direction image ≤ 0 ↔ c * c * Vec.dot s.direction image ≤ 0 :=
    nonpos_iff_mul_nonpos hsquare _
  have hrest (length : ℝ) : c • s.residual - length * (c • image) =
      c • (s.residual - length * image) := by
    rw [Vec.hmul_eq_smul, Vec.hmul_eq_smul, smul_sub, smul_comm]
  dsimp only
  rw [hcurvature]
  refine .ite (by simp [Scalar.isFinite, hflat]) (fun _ => .pure rfl) fun _ => ?_
  simp only [State.scale, hlength, along_smul, hrest]
  refine .ite (norm_smul_lt_iff hc _ _) (fun _ => .pure rfl) fun _ => ?_
  refine .bind ((h.smooth _).compares_of (h.smooth _)
    (R := fun smoothed smoothed' => smoothed' = c • smoothed) (map_smul M c _)) ?_
  rintro smoothed _ rfl
  simp only [dot_smul, Scalar.quotient_mul_left hsquare.ne', along_smul]
  refine .ite (nonpos_iff_mul_nonpos hsquare _) (fun _ => .pure rfl) fun _ => ?_
  exact .check fun beta _ => .pure rfl

theorem iterate_scale (hc : c ≠ 0) (h : system.Settles I on T fun r => .ok (M r)) (tolerance : ℝ) :
    ∀ budget completed s, (Comparison.apart I on).Compares (fun r r' => r' = r.scale c)
      (iterate system tolerance budget completed s)
      (iterate system (|c| * tolerance) budget completed (s.scale c)) := by
  intro budget
  induction budget with
  | zero => exact fun completed s => .pure rfl
  | succ budget ih =>
    intro completed s
    refine .bind (step_scale hc h tolerance s) ?_
    rintro step _ rfl
    cases step with
    | refused => exact .pure rfl
    | last exit point residual => exact .pure rfl
    | next t => exact ih (completed + 1) t

/-- **A solve of a multiple** finds the multiple of the point. -/
theorem solve_scale (hc : c ≠ 0) (h : system.Settles I on T fun r => .ok (M r)) (b guess : Vec ℝ n)
    (tolerance : ℝ) (budget : Nat) {e : Except Fault (Report ℝ n)}
    (he : (solve system b guess tolerance budget).Settles I on e) :
    (solve system (c • b) (c • guess) (|c| * tolerance) budget).Settles I on
      (Report.scale c <$> e) := by
  refine he.map_of_compares (.bind ((h.apply guess).compares_of (h.apply (c • guess))
    (R := fun image image' => image' = c • image) (map_smul T c _)) ?_)
  rintro image _ rfl
  have hresidual : c • b - c • image = c • (b - image) := (smul_sub c b image).symm
  have hstart : (decide (Vec.norm (b - image) < tolerance) || decide (n = 0)) = true ↔
      (decide (Vec.norm (c • (b - image)) < |c| * tolerance) || decide (n = 0)) = true := by
    simp only [Bool.or_eq_true, decide_eq_true_eq, ← norm_smul_lt_iff hc]
  dsimp only
  rw [hresidual]
  refine .ite hstart (fun _ => .pure rfl) fun _ => ?_
  refine .bind ((h.smooth _).compares_of (h.smooth _)
    (R := fun smoothed smoothed' => smoothed' = c • smoothed) (map_smul M c _)) ?_
  rintro smoothed _ rfl
  rw [dot_smul]
  exact iterate_scale hc h tolerance budget 0 ⟨guess, b - image, smoothed, _⟩

/-! ## Solves for callers -/

section

variable [RealText] {A : OperatorLike ℝ σ} {b guess maxIterations : Datum ℝ} {options : Options ℝ}
  {preconditioner : Option (OperatorLike ℝ σ)} {task : Task ℝ σ}

/-- The operator that is meant acts as `T`. -/
def SettlesAs (I : Invariant ℝ σ) (on : Logging.Source → Bool) (A : OperatorLike ℝ σ)
    (T : Vec ℝ n →ₗ[ℝ] Vec ℝ n) : Prop :=
  ∀ op, A.toOperator = .ok op → ∀ v, (op.apply v).Settles I on (.ok (T v))

/-- A preconditioner that is the function `m`, which may refuse residuals; without one residuals
stay what they are. -/
def PreconditionSettlesAs (I : Invariant ℝ σ) (on : Logging.Source → Bool)
    (preconditioner : Option (OperatorLike ℝ σ)) (m : Vec ℝ n → Except Fault (Vec ℝ n)) : Prop :=
  match preconditioner with
  | none => ∀ r, m r = .ok r
  | some P => ∀ op, P.toOperator = .ok op → ∀ r, (op.apply r).Settles I on (m r)

theorem Task.settles_of_read
    (hread : Task.read A b guess options maxIterations preconditioner = .ok task)
    {T : Vec ℝ task.unknowns →ₗ[ℝ] Vec ℝ task.unknowns}
    {m : Vec ℝ task.unknowns → Except Fault (Vec ℝ task.unknowns)} (hA : SettlesAs I on A T)
    (hm : PreconditionSettlesAs I on preconditioner m) : task.system.Settles I on T m := by
  obtain ⟨op, smoother, hop, hsmoother, hsystem⟩ := Task.system_of_read hread
  rw [hsystem]
  refine ⟨fun v => hA op hop v, fun r => ?_⟩
  cases preconditioner with
  | none =>
    cases hsmoother
    exact (hm r).symm ▸ .pure
  | some P =>
    obtain ⟨p, hp, hsome⟩ := Fault.bind_eq_ok hsmoother
    cases hsome
    exact hm p hp r

theorem readGuess_toArray (v : Vec ℝ n) : readGuess n (.vector v.toArray) = .ok v := by
  obtain ⟨entries, rfl⟩ := v
  exact dif_pos rfl

/-- Vectors of one length are read as they are. -/
theorem Task.read_vectors {op : Operator ℝ σ} {smoother : Option (Operator ℝ σ)}
    {tolerance budget : Number ℝ} (rhs : Vec ℝ n) {start : Vec ℝ n}
    (htolerance : options.tolerance.insist "tolerance" .nonNegative = .ok tolerance)
    (hA : A.toOperator = .ok op) (hsmoother : preconditioner.mapM OperatorLike.toOperator =
      .ok smoother) (hguess : readGuess n guess = .ok start)
    (hbudget : ((maxIterations.given? <|> options.maxIterations.given?).getD
      (.number (.whole (2 * n)))).insist "max_iterations" .nonNegative = .ok budget) :
    Task.read A (.vector rhs.toArray) guess options maxIterations preconditioner = .ok
      ⟨n, ⟨op.apply, smoother.map fun op => op.apply⟩, rhs, start, tolerance.ceiling,
        budget.roundsBelow⟩ := by
  obtain ⟨entries, rfl⟩ := rhs
  have hrhs : (Datum.vector entries).toVector "b" = .ok entries := rfl
  simp only [Task.read, htolerance, hA, hsmoother, hrhs, bind, Except.bind, hguess, hbudget]
  rfl

/-- Vectors of the same length, and another tolerance, are read in their places. -/
theorem Task.read_replaced
    (hread : Task.read A b guess options maxIterations preconditioner = .ok task)
    (rhs : Vec ℝ task.unknowns) {start : Vec ℝ task.unknowns} {tolerance : Number ℝ}
    {other : Options ℝ} {guess' : Datum ℝ} (hguess : readGuess task.unknowns guess' = .ok start)
    (htolerance : other.tolerance.insist "tolerance" .nonNegative = .ok tolerance)
    (hbudget : other.maxIterations = options.maxIterations) :
    Task.read A (.vector rhs.toArray) guess' other maxIterations preconditioner =
      .ok { task with rhs := rhs, guess := start, tolerance := tolerance.ceiling } := by
  obtain ⟨_, -, hread⟩ := Fault.bind_eq_ok hread
  obtain ⟨op, hop, hread⟩ := Fault.bind_eq_ok hread
  obtain ⟨smoother, hsmoother, hread⟩ := Fault.bind_eq_ok hread
  obtain ⟨entries, -, hread⟩ := Fault.bind_eq_ok hread
  obtain ⟨_, -, hread⟩ := Fault.bind_eq_ok hread
  obtain ⟨budget, hlimit, hread⟩ := Fault.bind_eq_ok hread
  cases hread
  refine Task.read_vectors rhs htolerance hop hsmoother hguess ?_
  rw [hbudget]
  exact hlimit

theorem admits_real {a : ℝ} : (Number.real a).admits .nonNegative = true ↔ 0 ≤ a := by
  have hzero : (Scalar.ofNat 0 : ℝ) = 0 := Nat.cast_zero
  simp [Number.admits, Number.isBelow, hzero]

/-- The tolerance that was read satisfies its bound. -/
theorem Task.tolerance_of_read
    (hread : Task.read A b guess options maxIterations preconditioner = .ok task) :
    ∃ tolerance, options.tolerance.insist "tolerance" .nonNegative = .ok tolerance ∧
      task.tolerance = tolerance.ceiling ∧ 0 ≤ task.tolerance := by
  obtain ⟨tolerance, htolerance, hread⟩ := Fault.bind_eq_ok hread
  obtain ⟨_, -, hread⟩ := Fault.bind_eq_ok hread
  obtain ⟨_, -, hread⟩ := Fault.bind_eq_ok hread
  obtain ⟨_, -, hread⟩ := Fault.bind_eq_ok hread
  obtain ⟨_, -, hread⟩ := Fault.bind_eq_ok hread
  obtain ⟨_, -, hread⟩ := Fault.bind_eq_ok hread
  cases hread
  refine ⟨tolerance, htolerance, rfl, ?_⟩
  have hadmits := Datum.admits_of_insist htolerance
  cases tolerance with
  | whole i =>
    have hi : 0 ≤ i := by simpa [Number.admits, Number.isBelow] using hadmits
    exact Int.cast_nonneg hi
  | real a => exact admits_real.1 hadmits

/-- What a solve for callers comes to: it reports `e`, and the point of the report is returned. -/
structure Reports (I : Invariant ℝ σ) (on : Logging.Source → Bool) (A : OperatorLike ℝ σ)
    (b guess : Datum ℝ) (options : Options ℝ) (maxIterations : Datum ℝ)
    (preconditioner : Option (OperatorLike ℝ σ)) (e : Except Fault (Report ℝ n)) : Prop where
  run : ∃ system rhs start tolerance budget,
    Task.read A b guess options maxIterations preconditioner =
      .ok ⟨n, system, rhs, start, tolerance, budget⟩ ∧
    (run system rhs start tolerance budget).Settles I on e
  point : (solveLinear A b guess options maxIterations preconditioner).Settles I on
    ((fun report => report.point.toArray) <$> e)

/-- After its loop a solve cannot fail. -/
theorem run_settles {rhs start : Vec ℝ n} {tolerance : ℝ} {budget : Nat}
    {e : Except Fault (Report ℝ n)} (h : (solve system rhs start tolerance budget).Settles I on e) :
    (LinearSystem.run system rhs start tolerance budget).Settles I on e := by
  cases e with
  | error fault => exact h.bind_error
  | ok report =>
    refine h.bind_ok ?_
    by_cases hexit : report.exit ≠ .atStart
    · rw [if_pos hexit]
      exact .bind_ok (.debug _ _) .pure
    · rw [if_neg hexit]
      exact .pure

/-- A solve reports what its loop comes to. -/
theorem reports_of_solve
    (hread : Task.read A b guess options maxIterations preconditioner = .ok task)
    {e : Except Fault (Report ℝ task.unknowns)}
    (h : (solve task.system task.rhs task.guess task.tolerance task.budget).Settles I on e) :
    Reports I on A b guess options maxIterations preconditioner e where
  run := ⟨_, _, _, _, _, hread, run_settles h⟩
  point := by
    rw [solveLinear, hread]
    exact (run_settles h).map

/-- **Solves are covariant.** For a linear system and a preconditioner that is any function, a solve
from a guess is the solve for the residual of the guess from zero, moved by the guess: with the same
options, after the same number of iterations and by the same exit, or with the same fault. If the
preconditioner is linear too, a multiple of the right-hand side, the guess and the tolerance, whose
factor is not zero, gives the multiple of the point, in the same way. -/
theorem solveLinear_covariant
    (hread : Task.read A b guess options maxIterations preconditioner = .ok task)
    {T : Vec ℝ task.unknowns →ₗ[ℝ] Vec ℝ task.unknowns}
    {m : Vec ℝ task.unknowns → Except Fault (Vec ℝ task.unknowns)} (hA : SettlesAs I on A T)
    (hm : PreconditionSettlesAs I on preconditioner m) :
    ∃ e e₀ : Except Fault (Report ℝ task.unknowns),
      Reports I on A b guess options maxIterations preconditioner e ∧
      (∀ zero, readGuess task.unknowns zero = .ok 0 →
        Reports I on A (.vector (task.rhs - T task.guess).toArray) zero options maxIterations
          preconditioner e₀) ∧
      e = Report.shift task.guess <$> e₀ ∧
      ∀ c : ℝ, c ≠ 0 → ∀ M : Vec ℝ task.unknowns →ₗ[ℝ] Vec ℝ task.unknowns,
        (∀ r, m r = .ok (M r)) →
        Reports I on A (.vector (c • task.rhs).toArray) (.vector (c • task.guess).toArray)
          { options with tolerance := .number (.real (|c| * task.tolerance)) } maxIterations
          preconditioner (Report.scale c <$> e) := by
  have hsystem := Task.settles_of_read hread hA hm
  obtain ⟨tolerance, htolerance, heq, hnonneg⟩ := Task.tolerance_of_read hread
  obtain ⟨e₀, he₀⟩ := hsystem.exists_solve (task.rhs - T task.guess) 0 task.tolerance task.budget
  have he := solve_shift hsystem task.rhs task.guess task.tolerance task.budget he₀
  refine ⟨_, e₀, reports_of_solve hread he, fun zero hzero => ?_, rfl, fun c hc M hM => ?_⟩
  · refine reports_of_solve
      (Task.read_replaced hread (task.rhs - T task.guess) hzero htolerance rfl) ?_
    rwa [← heq]
  · have hlinear : task.system.Settles I on T fun r => .ok (M r) := (funext hM) ▸ hsystem
    have hadmits := admits_real.2 (mul_nonneg (abs_nonneg c) hnonneg)
    let other := { options with tolerance := .number (.real (|c| * task.tolerance)) }
    have htolerance : other.tolerance.insist "tolerance" .nonNegative =
        .ok (.real (|c| * task.tolerance)) :=
      Datum.insist_of_admits hadmits _
    have hscaled := Task.read_replaced hread (c • task.rhs) (readGuess_toArray (c • task.guess))
      htolerance rfl
    refine reports_of_solve hscaled ?_
    exact solve_scale hc hlinear task.rhs task.guess task.tolerance task.budget he

theorem diagonal_settles {factors : Array ℝ} {op : Operator ℝ σ}
    (hop : (OperatorLike.operator (.diagonal factors)).toOperator = .ok op)
    (v : Vec ℝ factors.size) :
    (op.apply v).Settles I on (.ok (diagonalMap (Vec.ofArray factors) v)) := by
  cases hop
  unfold Operator.apply
  rw [dif_pos rfl]
  exact .pure

end

/-- An indefinite system from a guess, from zero, and reversed and doubled. -/
theorem solveLinear_covariant_indefinite :
    letI := RealText.mute
    let A : OperatorLike ℝ Unit := .operator (.diagonal #[2, -1])
    let P : OperatorLike ℝ Unit := .operator (.diagonal #[1, 3])
    ∃ e e₀ : Except Fault (Report ℝ 2),
      Reports Invariant.none (fun _ => false) A (.vector #[1, 1]) (.vector #[1, 0])
        { tolerance := .number (.real 3) } .nothing (some P) e ∧
      Reports Invariant.none (fun _ => false) A (.vector #[-1, 1]) .nothing
        { tolerance := .number (.real 3) } .nothing (some P) e₀ ∧
      e = Report.shift #v[1, 0] <$> e₀ ∧
      Reports Invariant.none (fun _ => false) A (.vector #[-2, -2]) (.vector #[-2, 0])
        { tolerance := .number (.real 6) } .nothing (some P) (Report.scale (-2) <$> e) := by
  let _ := RealText.mute
  intro A P
  have hresidual : (#v[1, 1] - diagonalMap #v[2, -1] #v[1, 0] : Vec ℝ 2) = #v[-1, 1] := by
    ext i hi
    interval_cases i <;> norm_num [diagonalMap, Vec.times]
  have hrhs : (-2 : ℝ) • (#v[1, 1] : Vec ℝ 2) = #v[-2, -2] := by
    ext i hi
    interval_cases i <;> norm_num [← Vec.hmul_eq_smul]
  have hguess : (-2 : ℝ) • (#v[1, 0] : Vec ℝ 2) = #v[-2, 0] := by
    ext i hi
    interval_cases i <;> norm_num [← Vec.hmul_eq_smul]
  have hadmits : (Number.real (3 : ℝ)).admits .nonNegative = true := admits_real.2 (by norm_num)
  have hread : Task.read A (.vector #[1, 1]) (.vector #[1, 0]) { tolerance := .number (.real 3) }
      .nothing (some P) = .ok _ :=
    Task.read_vectors #v[1, 1] (Datum.insist_of_admits hadmits "tolerance") rfl rfl
      (readGuess_toArray #v[1, 0]) rfl
  have hA : SettlesAs Invariant.none (fun _ => false) A (diagonalMap #v[2, -1]) :=
    fun _ hop => diagonal_settles hop
  have hP : PreconditionSettlesAs Invariant.none (fun _ => false) (some P)
      fun r => .ok (diagonalMap #v[1, 3] r) :=
    fun _ hop => diagonal_settles hop
  obtain ⟨e, e₀, he, hshift, hmoved, hscale⟩ := solveLinear_covariant hread hA hP
  have hdouble : |(-2 : ℝ)| * 3 = 6 := by norm_num
  have hzero := hshift .nothing rfl
  have hscaled := hscale (-2) (by norm_num) (diagonalMap #v[1, 3]) fun _ => rfl
  dsimp only [Number.ceiling] at hzero hscaled
  rw [hresidual] at hzero
  rw [hrhs, hguess, hdouble] at hscaled
  exact ⟨e, e₀, he, hzero, hmoved, hscaled⟩

end LinearSystem

end Descent
