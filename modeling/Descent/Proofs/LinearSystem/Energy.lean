import Descent.Proofs.LinearSystem.Krylov

/-!
# The energy of a solve with any preconditioner

For a symmetric system the quadratic `energy` falls with every completed iteration, whatever the
preconditioner does: it may be asymmetric, indefinite, or not linear at all. The directions are then
not conjugate. What every step keeps is that the slope along the next direction is the product of
the state, since the residual after a step is orthogonal to the direction of the step.

* `LinearSystem.Aligned`: the states whose slope is their product;
* `LinearSystem.Aligned.energy_moved`: what a step from one of them takes off the energy;
* `LinearSystem.Course.Descends`: the energy along the record of a solve;
* `LinearSystem.course_descends`: from an aligned state on, the record exists and descends;
* `LinearSystem.solveLinear_descends`: so it does for callers.
-/

open scoped InnerProductSpace

namespace Descent.LinearSystem

variable {σ : Type} {n : Nat} {T : Vec ℝ n →ₗ[ℝ] Vec ℝ n} {M : Vec ℝ n → Vec ℝ n} {b : Vec ℝ n}
  {s : State ℝ n}

/-! ## One step -/

/-- A state whose residual is that of its point, and whose product is both that of the residual with
the preconditioned residual and the slope along the direction. -/
structure Aligned (T : Vec ℝ n →ₗ[ℝ] Vec ℝ n) (M : Vec ℝ n → Vec ℝ n) (b : Vec ℝ n)
    (s : State ℝ n) : Prop where
  residual_eq : s.residual = b - T s.point
  product_eq : s.product = ⟪s.residual, M s.residual⟫_ℝ
  slope_eq : ⟪s.residual, s.direction⟫_ℝ = s.product

namespace Aligned

/-- A solve starts along the preconditioned residual. -/
theorem initial (T : Vec ℝ n →ₗ[ℝ] Vec ℝ n) (M : Vec ℝ n → Vec ℝ n) (b guess : Vec ℝ n) :
    Aligned T M b ⟨guess, b - T guess, M (b - T guess), ⟪b - T guess, M (b - T guess)⟫_ℝ⟩ :=
  ⟨rfl, rfl, rfl⟩

/-- The part of the next direction that keeps to this one does not change the slope. -/
theorem next (hT : T.IsSymmetric) (h : Aligned T M b s)
    (hcurvature : 0 < ⟪s.direction, T s.direction⟫_ℝ) : Aligned T M b (s.next T M) where
  residual_eq := State.rest_eq h.residual_eq
  product_eq := rfl
  slope_eq := by
    have horthogonal : ⟪s.rest T, s.direction⟫_ℝ = 0 :=
      State.inner_rest_direction hT h.slope_eq hcurvature
    rw [State.next, inner_add_right, real_inner_smul_right, horthogonal, mul_zero, add_zero]

/-- **A step takes half the squared product over the curvature off the energy.** -/
theorem energy_moved (hT : T.IsSymmetric) (h : Aligned T M b s)
    (hcurvature : 0 < ⟪s.direction, T s.direction⟫_ℝ) :
    energy T b (s.moved T) =
      energy T b s.point - s.product ^ 2 / (2 * ⟪s.direction, T s.direction⟫_ℝ) := by
  rw [State.moved, energy_add hT, ← h.residual_eq, map_smul, inner_smul_left, inner_smul_right,
    inner_smul_right, h.slope_eq, State.length]
  simp only [conj_trivial]
  field_simp
  ring

theorem energy_moved_le (hT : T.IsSymmetric) (h : Aligned T M b s)
    (hcurvature : 0 < ⟪s.direction, T s.direction⟫_ℝ) :
    energy T b (s.moved T) ≤ energy T b s.point := by
  rw [h.energy_moved hT hcurvature]
  exact sub_le_self _ (by positivity)

theorem energy_moved_lt (hT : T.IsSymmetric) (h : Aligned T M b s)
    (hcurvature : 0 < ⟪s.direction, T s.direction⟫_ℝ) (hproduct : s.product ≠ 0) :
    energy T b (s.moved T) < energy T b s.point := by
  rw [h.energy_moved hT hcurvature]
  exact sub_lt_self _ (by positivity)

end Aligned

/-! ## The record of a solve -/

/-- The product that iteration `k` starts with. -/
def Course.productAt {α : Type} [Scalar α] {n : Nat} (c : Course α n) (k : Nat) : α :=
  (c.heads[k]?.map State.product).getD 0

/-- The energy along a course from `start`: every completed iteration has positive curvature and
lowers the energy by a known amount, and all of them together lower it unless there is none, or a
single one with product zero. -/
structure Course.Descends (T : Vec ℝ n →ₗ[ℝ] Vec ℝ n) (M : Vec ℝ n → Vec ℝ n) (b start : Vec ℝ n)
    (c : Course ℝ n) : Prop where
  pointAt_zero : c.pointAt 0 = start
  residual_eq : ∀ k ≤ c.heads.length, c.residualAt k = b - T (c.pointAt k)
  product_eq : ∀ k < c.heads.length, c.productAt k = ⟪c.residualAt k, M (c.residualAt k)⟫_ℝ
  slope_eq : ∀ k < c.heads.length, ⟪c.residualAt k, c.directionAt k⟫_ℝ = c.productAt k
  curvature_pos : ∀ k < c.heads.length, 0 < ⟪c.directionAt k, T (c.directionAt k)⟫_ℝ
  drop : ∀ k < c.heads.length, energy T b (c.pointAt (k + 1)) = energy T b (c.pointAt k) -
    c.productAt k ^ 2 / (2 * ⟪c.directionAt k, T (c.directionAt k)⟫_ℝ)
  energy_le : energy T b c.point ≤ energy T b start
  of_energy_eq : energy T b c.point = energy T b start →
    c.heads = [] ∨ c.heads.length = 1 ∧ c.productAt 0 = 0

namespace Course.Descends

variable {c : Course ℝ n}

/-- Nothing was completed. -/
theorem stay (h : s.residual = b - T s.point) (exit : Exit) :
    Course.Descends T M b s.point ⟨[], s.point, s.residual, exit⟩ where
  pointAt_zero := rfl
  residual_eq _ _ := h
  product_eq := nofun
  slope_eq := nofun
  curvature_pos := nofun
  drop := nofun
  energy_le := le_rfl
  of_energy_eq _ := .inl rfl

/-- One iteration before a course that starts where it leads to. If the course is not empty, or the
product is not zero, the energy falls strictly. -/
theorem cons (hT : T.IsSymmetric) (hs : Aligned T M b s)
    (hcurvature : 0 < ⟪s.direction, T s.direction⟫_ℝ) (h : c.Descends T M b (s.moved T))
    (hproduct : c.heads = [] ∨ s.product ≠ 0) :
    Course.Descends T M b s.point { c with heads := s :: c.heads } where
  pointAt_zero := rfl
  residual_eq k hk := by
    cases k with
    | zero => exact hs.residual_eq
    | succ k => exact h.residual_eq k (Nat.le_of_succ_le_succ hk)
  product_eq k hk := by
    cases k with
    | zero => exact hs.product_eq
    | succ k => exact h.product_eq k (Nat.lt_of_succ_lt_succ hk)
  slope_eq k hk := by
    cases k with
    | zero => exact hs.slope_eq
    | succ k => exact h.slope_eq k (Nat.lt_of_succ_lt_succ hk)
  curvature_pos k hk := by
    cases k with
    | zero => exact hcurvature
    | succ k => exact h.curvature_pos k (Nat.lt_of_succ_lt_succ hk)
  drop k hk := by
    cases k with
    | zero =>
      refine Eq.trans ?_ (hs.energy_moved hT hcurvature)
      rw [← h.pointAt_zero]
      rfl
    | succ k => exact h.drop k (Nat.lt_of_succ_lt_succ hk)
  energy_le := h.energy_le.trans (hs.energy_moved_le hT hcurvature)
  of_energy_eq heq := by
    have hzero : s.product = 0 := by
      by_contra hne
      exact (h.energy_le.trans_lt (hs.energy_moved_lt hT hcurvature hne)).ne heq
    refine .inr ⟨?_, hzero⟩
    rw [hproduct.resolve_right (absurd hzero), List.length_singleton]

/-- The last iteration. -/
theorem last (hT : T.IsSymmetric) (hs : Aligned T M b s)
    (hcurvature : 0 < ⟪s.direction, T s.direction⟫_ℝ) (exit : Exit) :
    Course.Descends T M b s.point ⟨[s], s.moved T, s.rest T, exit⟩ :=
  cons hT hs hcurvature (stay (s := s.next T M) (State.rest_eq hs.residual_eq) exit) (.inl rfl)

end Course.Descends

/-! ## The loop -/

variable {I : Invariant ℝ σ} {system : System ℝ σ n} {tolerance : ℝ}

/-- **The loop from an aligned state on.** Each way an iteration can end either moves nothing or
takes one step from an aligned state, and only a step along a product other than zero is followed by
another. -/
theorem course_descends (hT : T.IsSymmetric) (h : system.Acts I T M) : ∀ budget s,
    Aligned T M b s → ∃ c, (course system tolerance budget s).Yields I c ∧
      c.Descends T M b s.point := by
  intro budget
  induction budget with
  | zero => exact fun s hs => ⟨⟨[], s.point, s.residual, .budget⟩, .pure, .stay hs.residual_eq _⟩
  | succ budget ih =>
    intro s hs
    obtain ⟨r, hr, hstepped⟩ := step_yields h tolerance hs.product_eq
    cases hstepped with
    | refused hflat =>
      exact ⟨⟨[], s.point, s.residual, .curvature⟩, .bind hr .pure, .stay hs.residual_eq _⟩
    | met hpos hnorm =>
      exact ⟨⟨[s], s.moved T, s.rest T, .tolerance⟩, .bind hr .pure, .last hT hs hpos _⟩
    | stuck hpos hnorm hstuck =>
      exact ⟨⟨[s], s.moved T, s.rest T, .preconditioner⟩, .bind hr .pure, .last hT hs hpos _⟩
    | next hpos hnorm hne =>
      obtain ⟨c, hc, hdescends⟩ := ih (s.next T M) (hs.next hT hpos)
      exact ⟨{ c with heads := s :: c.heads }, .bind hr (.bind hc .pure),
        .cons hT hs hpos hdescends (.inr hne)⟩

/-- **The record of a solve descends.** -/
theorem courseFrom_descends (hT : T.IsSymmetric) (h : system.Acts I T M) (b guess : Vec ℝ n)
    (tolerance : ℝ) (budget : Nat) :
    ∃ c, (courseFrom system b guess tolerance budget).Yields I c ∧ c.Descends T M b guess := by
  by_cases hstart : (decide (Vec.norm (b - T guess) < tolerance) || decide (n = 0)) = true
  · refine ⟨⟨[], guess, b - T guess, .atStart⟩, .bind (h.apply guess) ?_,
      .stay (Aligned.initial T M b guess).residual_eq _⟩
    dsimp only
    rw [if_pos hstart]
    exact .pure
  · obtain ⟨c, hc, hdescends⟩ := course_descends hT h budget _ (Aligned.initial T M b guess)
    refine ⟨c, .bind (h.apply guess) ?_, hdescends⟩
    dsimp only
    rw [if_neg hstart]
    exact .bind (h.smooth _) hc

/-! ## Solves for callers -/

section

variable [RealText] {A : OperatorLike ℝ σ} {b guess : Datum ℝ} {options : Options ℝ}
  {maxIterations : Datum ℝ} {preconditioner : Option (OperatorLike ℝ σ)} {task : Task ℝ σ}

/-- **Solves lower the energy, however bad the preconditioner.** For a symmetric system, definite or
not, and a preconditioner that gives any vectors at all, the slope along the direction of every
completed iteration is its product `rz`, and the iteration lowers the energy by
`rz ^ 2 / (2 * curvature)`. So the point returned has no more energy than the guess, and the same
only if no iteration was completed, or a single one with `rz = 0`. -/
theorem solveLinear_descends
    (hread : Task.read A b guess options maxIterations preconditioner = .ok task)
    {T : Vec ℝ task.unknowns →ₗ[ℝ] Vec ℝ task.unknowns} (hT : T.IsSymmetric)
    {m : Vec ℝ task.unknowns → Vec ℝ task.unknowns} (hA : ActsAs I A T)
    (hP : SmoothsAs I preconditioner m) :
    ∃ c : Course ℝ task.unknowns,
      (courseFrom task.system task.rhs task.guess task.tolerance task.budget).Yields I c ∧
      (run task.system task.rhs task.guess task.tolerance task.budget).Yields I (c.report 0) ∧
      (solveLinear A b guess options maxIterations preconditioner).Yields I c.point.toArray ∧
      c.Descends T m task.rhs task.guess := by
  obtain ⟨c, hc, hdescends⟩ := courseFrom_descends hT (Task.acts_of_smooths hread hA hP) task.rhs
    task.guess task.tolerance task.budget
  exact ⟨c, hc, run_yields hc, solveLinear_yields hread hc, hdescends⟩

/-- A preconditioner given as a function on the entries. -/
theorem smoothsAs_entrywise (I : Invariant ℝ σ) (f : ℝ → ℝ) :
    SmoothsAs (n := n) I (some (.map fun v => pure (.vector (v.map f)))) (Vector.map f) := by
  intro op hop r
  cases hop
  refine .bind .pure (.bind .pure (.bind (.ofExcept rfl) ?_))
  rw [dif_pos (by simp)]
  exact .pure

end

/-- The energy of an indefinite system falls also where the preconditioner is not linear and the
first product is negative. -/
theorem solveLinear_descends_entrywise :
    letI := RealText.mute
    ∃ c : Course ℝ 2,
      (solveLinear (σ := Unit) (.operator (.diagonal #[2, -1])) (.vector #[1, 1]) .nothing
        { tolerance := .number (.whole 0) } .nothing
        (some (.map fun v => pure (.vector (v.map fun r => -r ^ 2))))).Yields
          Invariant.none c.point.toArray ∧
      c.Descends (diagonalMap #v[2, -1]) (Vector.map fun r => -r ^ 2) #v[1, 1] 0 := by
  let _ := RealText.mute
  have hread : Task.read (σ := Unit) (.operator (.diagonal #[(2 : ℝ), -1])) (.vector #[1, 1])
      .nothing { tolerance := .number (.whole 0) } .nothing
      (some (.map fun v => pure (.vector (v.map fun r => -r ^ 2)))) =
      .ok ⟨2, _, #v[1, 1], 0, _, _⟩ := rfl
  obtain ⟨c, -, -, hc, hdescends⟩ := solveLinear_descends hread
    (diagonalMap_isSymmetric #v[2, -1]) (actsAs_diagonal Invariant.none #[2, -1])
    (smoothsAs_entrywise Invariant.none fun r => -r ^ 2)
  exact ⟨c, hc, hdescends⟩

end Descent.LinearSystem
