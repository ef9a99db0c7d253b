import Descent.Proofs.LinearSystem.Exact

/-!
# Optimality of conjugate gradients

The iterations of a solve, counted from zero, and the relations between them. Neither the system nor
the preconditioner has to be definite: all that is used of a completed iteration is that the
curvature along its direction was positive.

* `LinearSystem.Reached.energy_lt`: where the residual is orthogonal to a space of directions, the
  quadratic has its only minimum over that space;
* `LinearSystem.Course.Krylov`: conjugate directions, orthogonal residuals, points of least energy;
* `LinearSystem.Course.Traced.krylov`: every record of a solve has these relations;
* `LinearSystem.solveLinear_krylov`: so has every solve for callers, however it ends.
-/

open scoped InnerProductSpace

namespace Descent.LinearSystem

/-! ## The quadratic -/

section

variable {n : Nat} {T : Vec ℝ n →ₗ[ℝ] Vec ℝ n} {b guess : Vec ℝ n}

/-- The quadratic whose gradient is minus the residual. -/
noncomputable def energy (T : Vec ℝ n →ₗ[ℝ] Vec ℝ n) (b x : Vec ℝ n) : ℝ :=
  ⟪x, T x⟫_ℝ / 2 - ⟪b, x⟫_ℝ

theorem energy_add (hT : T.IsSymmetric) (b x u : Vec ℝ n) :
    energy T b (x + u) = energy T b x - ⟪b - T x, u⟫_ℝ + ⟪u, T u⟫_ℝ / 2 := by
  have hcross : ⟪u, T x⟫_ℝ = ⟪T x, u⟫_ℝ := real_inner_comm _ _
  have hsymm : ⟪x, T u⟫_ℝ = ⟪T x, u⟫_ℝ := (hT x u).symm
  simp only [energy, map_add, inner_add_left, inner_add_right, inner_sub_left, hcross, hsymm]
  ring

/-- **A reached point is the only minimum of the quadratic** among those that the directions
reach. -/
theorem Reached.energy_lt (hT : T.IsSymmetric) {P : Submodule ℝ (Vec ℝ n)} {x r : Vec ℝ n}
    (h : Reached T b guess P x r) (hpos : ∀ u ∈ P, u ≠ 0 → 0 < ⟪u, T u⟫_ℝ) {y : Vec ℝ n}
    (hy : y - guess ∈ P) (hne : y ≠ x) : energy T b x < energy T b y := by
  have hmem : y - x ∈ P := by
    have hsplit : y - x = (y - guess) - (x - guess) := by abel
    rw [hsplit]
    exact P.sub_mem hy h.point_mem
  have hcurvature := hpos _ hmem (sub_ne_zero.2 hne)
  have horthogonal := h.orthogonal _ hmem
  rw [h.residual_eq] at horthogonal
  have henergy := energy_add hT b x (y - x)
  rw [add_sub_cancel, horthogonal] at henergy
  linarith

end

/-! ## The record, by iteration -/

section

variable {α : Type} [Scalar α] {n : Nat}

/-- The point after `k` iterations. -/
def Course.pointAt (c : Course α n) (k : Nat) : Vec α n :=
  (c.heads[k]?.map State.point).getD c.point

/-- The residual after `k` iterations. -/
def Course.residualAt (c : Course α n) (k : Nat) : Vec α n :=
  (c.heads[k]?.map State.residual).getD c.residual

/-- The direction of iteration `k`. -/
def Course.directionAt (c : Course α n) (k : Nat) : Vec α n :=
  (c.heads[k]?.map State.direction).getD (Vec.zeros n)

end

namespace Course

variable {n : Nat} {T M : Vec ℝ n →ₗ[ℝ] Vec ℝ n} {b guess : Vec ℝ n} {tolerance : ℝ} {budget : Nat}
  {c : Course ℝ n}

/-- The space that the directions of the first `k` iterations span. -/
noncomputable def space (c : Course ℝ n) (k : Nat) : Submodule ℝ (Vec ℝ n) :=
  Submodule.span ℝ (c.directionAt '' Set.Iio k)

/-- The relations between the iterations of a course. -/
structure Krylov (T M : Vec ℝ n →ₗ[ℝ] Vec ℝ n) (b guess : Vec ℝ n) (c : Course ℝ n) : Prop where
  residual_eq : ∀ k ≤ c.heads.length, c.residualAt k = b - T (c.pointAt k)
  conjugate : ∀ i < c.heads.length, ∀ j < c.heads.length, i ≠ j →
    ⟪c.directionAt i, T (c.directionAt j)⟫_ℝ = 0
  curvature_pos : ∀ i < c.heads.length, 0 < ⟪c.directionAt i, T (c.directionAt i)⟫_ℝ
  smooth_orthogonal : ∀ i ≤ c.heads.length, ∀ j ≤ c.heads.length, i ≠ j →
    ⟪c.residualAt i, M (c.residualAt j)⟫_ℝ = 0
  orthogonal : ∀ k ≤ c.heads.length, ∀ j < k, ⟪c.residualAt k, c.directionAt j⟫_ℝ = 0
  /-- Each point is reached along the directions before it, and every other point so reached has
  more energy. -/
  minimal : ∀ k ≤ c.heads.length, c.pointAt k - guess ∈ c.space k ∧
    ∀ y, y - guess ∈ c.space k → y ≠ c.pointAt k → energy T b (c.pointAt k) < energy T b y
  /-- The point returned has the least energy. -/
  least : ∀ k ≤ c.heads.length, energy T b c.point ≤ energy T b (c.pointAt k)

variable {k : Nat}

theorem pointAt_of_lt (hk : k < c.heads.length) : c.pointAt k = c.heads[k].point := by
  simp [pointAt, hk]

theorem residualAt_of_lt (hk : k < c.heads.length) : c.residualAt k = c.heads[k].residual := by
  simp [residualAt, hk]

theorem directionAt_of_lt (hk : k < c.heads.length) : c.directionAt k = c.heads[k].direction := by
  simp [directionAt, hk]

theorem space_eq_directions (hk : k ≤ c.heads.length) :
    c.space k = directions (c.heads.take k) := by
  rw [space, directions]
  congr 1
  ext d
  constructor
  · rintro ⟨i, hi, rfl⟩
    have hlt : i < c.heads.length := lt_of_lt_of_le hi hk
    exact ⟨c.heads[i], List.mem_take_iff_getElem.2 ⟨i, by simp [hlt, Set.mem_Iio.1 hi], rfl⟩,
      (directionAt_of_lt hlt).symm⟩
  · rintro ⟨s, hs, rfl⟩
    obtain ⟨i, hi, rfl⟩ := List.mem_take_iff_getElem.1 hs
    have hmin := lt_min_iff.1 hi
    exact ⟨i, hmin.1, directionAt_of_lt hmin.2⟩

theorem space_mono (c : Course ℝ n) {j : Nat} (h : j ≤ k) : c.space j ≤ c.space k :=
  Submodule.span_mono (Set.image_mono (Set.Iio_subset_Iio h))

theorem directionAt_mem (c : Course ℝ n) {j : Nat} (h : j < k) : c.directionAt j ∈ c.space k :=
  Submodule.subset_span ⟨j, h, rfl⟩

namespace Traced

variable (h : Course.Traced T M b guess tolerance budget c)

include h

theorem headAt (hk : k < c.heads.length) :
    Head T M b guess (c.heads.take k) c.heads[k] ∧
      0 < ⟪c.directionAt k, T (c.directionAt k)⟫_ℝ := by
  rw [directionAt_of_lt hk]
  have hsplit : c.heads = c.heads.take k ++ c.heads[k] :: c.heads.drop (k + 1) := by
    rw [← List.drop_eq_getElem_cons hk, List.take_append_drop]
  exact h.heads.split hsplit

/-- What is known of every point on the way, the last one included. -/
theorem reachedAt (hk : k ≤ c.heads.length) :
    Reached T b guess (c.space k) (c.pointAt k) (c.residualAt k) := by
  rw [space_eq_directions hk]
  rcases Nat.lt_or_eq_of_le hk with hlt | rfl
  · rw [pointAt_of_lt hlt, residualAt_of_lt hlt]
    exact (h.headAt hlt).1.toReached
  · simpa [pointAt, residualAt] using h.last

theorem positive (hT : T.IsSymmetric) (hk : k ≤ c.heads.length) :
    ∀ u ∈ c.space k, u ≠ 0 → 0 < ⟪u, T u⟫_ℝ := by
  intro u hu
  have hmem : u ∈ directions c.heads := by
    have hall := c.space_mono hk hu
    rwa [space_eq_directions le_rfl, List.take_length] at hall
  exact h.heads.positive hT u hmem

/-- The preconditioned residual of an iteration lies in the space that its direction completes. -/
theorem smooth_mem (hk : k < c.heads.length) : M (c.residualAt k) ∈ c.space (k + 1) := by
  rw [space_eq_directions hk, residualAt_of_lt hk, List.take_succ_eq_append_getElem hk]
  exact (h.headAt hk).1.smooth_mem

theorem conjugate_of_lt {i : Nat} (hk : k < c.heads.length) (hi : i < k) :
    ⟪c.directionAt i, T (c.directionAt k)⟫_ℝ = 0 := by
  have hmem := c.directionAt_mem hi
  rw [space_eq_directions hk.le] at hmem
  rw [directionAt_of_lt hk]
  exact (h.headAt hk).1.conjugate _ hmem

theorem smooth_orthogonal_of_lt {i : Nat} (hk : k ≤ c.heads.length) (hi : i < k) :
    ⟪c.residualAt k, M (c.residualAt i)⟫_ℝ = 0 :=
  (h.reachedAt hk).orthogonal _ (c.space_mono hi (h.smooth_mem (lt_of_lt_of_le hi hk)))

/-- **A traced course has all relations of the method.** -/
theorem krylov (hT : T.IsSymmetric) (hM : M.IsSymmetric) : c.Krylov T M b guess where
  residual_eq k hk := (h.reachedAt hk).residual_eq
  conjugate i hi j hj hne := by
    rcases Nat.lt_or_gt_of_ne hne with hlt | hlt
    · exact h.conjugate_of_lt hj hlt
    · rw [← hT, real_inner_comm]
      exact h.conjugate_of_lt hi hlt
  curvature_pos i hi := (h.headAt hi).2
  smooth_orthogonal i hi j hj hne := by
    rcases Nat.lt_or_gt_of_ne hne with hlt | hlt
    · rw [← hM, real_inner_comm]
      exact h.smooth_orthogonal_of_lt hj hlt
    · exact h.smooth_orthogonal_of_lt hi hlt
  orthogonal k hk j hj := (h.reachedAt hk).orthogonal _ (c.directionAt_mem hj)
  minimal k hk := ⟨(h.reachedAt hk).point_mem, fun y hy hne =>
    (h.reachedAt hk).energy_lt hT (h.positive hT hk) hy hne⟩
  least k hk := by
    have hlast : c.pointAt c.heads.length = c.point := by simp [pointAt]
    by_cases heq : c.pointAt k = c.point
    · rw [heq]
    · rw [← hlast] at heq ⊢
      exact ((h.reachedAt le_rfl).energy_lt hT (h.positive hT le_rfl)
        (c.space_mono hk (h.reachedAt hk).point_mem) heq).le

end Traced

end Course

/-! ## Solves for callers -/

section

variable {σ : Type} [RealText] {I : Invariant ℝ σ} {A : OperatorLike ℝ σ} {b guess : Datum ℝ}
  {options : Options ℝ} {maxIterations : Datum ℝ} {preconditioner : Option (OperatorLike ℝ σ)}
  {task : Task ℝ σ}

/-- What was read from callers is solved, and the point where the record ends is returned. -/
theorem solveLinear_yields
    (hread : Task.read A b guess options maxIterations preconditioner = .ok task)
    {c : Course ℝ task.unknowns}
    (h : (courseFrom task.system task.rhs task.guess task.tolerance task.budget).Yields I c) :
    (solveLinear A b guess options maxIterations preconditioner).Yields I c.point.toArray :=
  .bind (.ofExcept hread) (.bind (run_yields h) .pure)

/-- **Solves have the relations of conjugate gradients.** For a symmetric system, definite or not,
and a preconditioner that is absent or symmetric, definite or not, the directions of all completed
iterations are conjugate with positive curvature, the residuals are orthogonal with respect to the
preconditioner and to all earlier directions, and every point is the only minimum of the quadratic
over what the directions before it reach. So the point returned has the least energy, however the
solve ended. -/
theorem solveLinear_krylov
    (hread : Task.read A b guess options maxIterations preconditioner = .ok task)
    {T M : Vec ℝ task.unknowns →ₗ[ℝ] Vec ℝ task.unknowns} (hT : T.IsSymmetric) (hM : M.IsSymmetric)
    (hA : ActsAs I A T) (hP : PreconditionsAs I preconditioner M) :
    ∃ c : Course ℝ task.unknowns,
      (courseFrom task.system task.rhs task.guess task.tolerance task.budget).Yields I c ∧
      (run task.system task.rhs task.guess task.tolerance task.budget).Yields I (c.report 0) ∧
      (solveLinear A b guess options maxIterations preconditioner).Yields I c.point.toArray ∧
      c.Krylov T M task.rhs task.guess := by
  obtain ⟨c, hc, htraced⟩ := courseFrom_yields hT hM (Task.acts_of_read hread hA hP) task.rhs
    task.guess task.tolerance task.budget
  exact ⟨c, hc, run_yields hc, solveLinear_yields hread hc, htraced.krylov hT hM⟩

end

/-! ## Diagonal systems -/

/-- Every entry times its own factor. -/
noncomputable def diagonalMap {n : Nat} (factors : Vec ℝ n) : Vec ℝ n →ₗ[ℝ] Vec ℝ n where
  toFun v := Vec.times factors v
  map_add' u v := by
    ext i hi
    simp [Vec.times, mul_add]
  map_smul' a v := by
    ext i hi
    simp [Vec.times, mul_left_comm]

theorem inner_diagonalMap {n : Nat} (factors u v : Vec ℝ n) :
    ⟪u, diagonalMap factors v⟫_ℝ = Vec.dot factors (Vec.times u v) := by
  change Vec.dot u (Vec.times factors v) = _
  rw [Vec.dot_eq_sum, Vec.dot_eq_sum]
  refine Finset.sum_congr rfl fun i _ => ?_
  rw [Vec.getElem_times, Vec.getElem_times, mul_left_comm]

theorem diagonalMap_isSymmetric {n : Nat} (factors : Vec ℝ n) :
    (diagonalMap factors).IsSymmetric := by
  intro u v
  have hcomm : Vec.times v u = Vec.times u v := by
    ext i hi
    simp [Vec.times, mul_comm]
  rw [real_inner_comm, inner_diagonalMap, inner_diagonalMap, hcomm]

theorem actsAs_diagonal {σ : Type} [RealText] (I : Invariant ℝ σ) (factors : Array ℝ) :
    ActsAs I (.operator (.diagonal factors)) (diagonalMap (Vec.ofArray factors)) := by
  intro op hop v
  cases hop
  unfold Operator.apply
  rw [dif_pos rfl]
  exact .pure

/-- The relations hold for an indefinite system with an indefinite preconditioner. -/
theorem solveLinear_krylov_indefinite :
    letI := RealText.mute
    ∃ c : Course ℝ 2,
      (solveLinear (σ := Unit) (.operator (.diagonal #[2, -1])) (.vector #[1, 1]) .nothing
        { tolerance := .number (.whole 0) } .nothing
        (some (.operator (.diagonal #[1, -1])))).Yields Invariant.none c.point.toArray ∧
      c.Krylov (diagonalMap #v[2, -1]) (diagonalMap #v[1, -1]) #v[1, 1] 0 := by
  let _ := RealText.mute
  have hread : Task.read (σ := Unit) (.operator (.diagonal #[(2 : ℝ), -1])) (.vector #[1, 1])
      .nothing { tolerance := .number (.whole 0) } .nothing
      (some (.operator (.diagonal #[1, -1]))) =
      .ok ⟨2, _, #v[1, 1], 0, _, _⟩ := rfl
  obtain ⟨c, -, -, hc, hkrylov⟩ := solveLinear_krylov hread
    (diagonalMap_isSymmetric #v[2, -1]) (diagonalMap_isSymmetric #v[1, -1])
    (actsAs_diagonal Invariant.none #[2, -1]) (actsAs_diagonal Invariant.none #[1, -1])
  exact ⟨c, hc, hkrylov⟩

end Descent.LinearSystem
