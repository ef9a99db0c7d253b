import Descent.Proofs.Exact.Euclidean
import Descent.Proofs.LinearSystem.Course

/-!
# Conjugate directions

The mathematics of an iteration, apart from the run that computes it: what the loop knows of a state
from which an iteration starts, and why the next state is such a state again.

* `LinearSystem.Reached`: a point whose residual is orthogonal to the directions that led to it;
* `LinearSystem.Head`: a state whose direction is conjugate to all earlier ones;
* `LinearSystem.Head.reached_next`, `LinearSystem.Head.head_next`: one step keeps both;
* `LinearSystem.Heads`: the sequences of such states with positive curvature.
-/

open scoped InnerProductSpace

namespace Descent.LinearSystem

variable {n : Nat} {T M : Vec ℝ n →ₗ[ℝ] Vec ℝ n} {b guess : Vec ℝ n}

/-! ## The space of the directions -/

/-- What the directions of iterations span. -/
noncomputable def directions (heads : List (State ℝ n)) : Submodule ℝ (Vec ℝ n) :=
  Submodule.span ℝ {d | ∃ s ∈ heads, s.direction = d}

theorem directions_nil : directions ([] : List (State ℝ n)) = ⊥ := by
  simp [directions]

theorem directions_snoc (heads : List (State ℝ n)) (s : State ℝ n) :
    directions (heads ++ [s]) = directions heads ⊔ ℝ ∙ s.direction := by
  rw [directions, directions, ← Submodule.span_union]
  congr 1
  ext d
  simp [or_and_right, exists_or, or_comm, eq_comm]

theorem direction_mem {heads : List (State ℝ n)} {s : State ℝ n} (hs : s ∈ heads) :
    s.direction ∈ directions heads :=
  Submodule.subset_span ⟨s, hs, rfl⟩

theorem directions_mono {heads others : List (State ℝ n)} (h : ∀ s ∈ heads, s ∈ others) :
    directions heads ≤ directions others :=
  Submodule.span_mono fun _ ⟨s, hs, hd⟩ => ⟨s, h s hs, hd⟩

/-- A vector of the space with one more direction. -/
theorem exists_of_mem_snoc {heads : List (State ℝ n)} {s : State ℝ n} {u : Vec ℝ n}
    (hu : u ∈ directions (heads ++ [s])) :
    ∃ v ∈ directions heads, ∃ a : ℝ, u = v + a • s.direction := by
  rw [directions_snoc, Submodule.mem_sup] at hu
  obtain ⟨v, hv, w, hw, rfl⟩ := hu
  obtain ⟨a, rfl⟩ := Submodule.mem_span_singleton.1 hw
  exact ⟨v, hv, a, rfl⟩

/-! ## States of the method -/

section

variable (T : Vec ℝ n →ₗ[ℝ] Vec ℝ n) (M : Vec ℝ n → Vec ℝ n) (s : State ℝ n)

/-- The length of the step from a state. -/
noncomputable def State.length : ℝ := s.product / ⟪s.direction, T s.direction⟫_ℝ

/-- The point that the step leads to. -/
noncomputable def State.moved : Vec ℝ n := s.point + s.length T • s.direction

/-- The residual there. -/
noncomputable def State.rest : Vec ℝ n := s.residual - s.length T • T s.direction

/-- The state there, with the next direction. -/
noncomputable def State.next : State ℝ n where
  point := s.moved T
  residual := s.rest T
  direction := M (s.rest T) + (⟪s.rest T, M (s.rest T)⟫_ℝ / s.product) • s.direction
  product := ⟪s.rest T, M (s.rest T)⟫_ℝ

variable {T s}

/-- The residual that a step computes is the residual of the point that it leads to. -/
theorem State.rest_eq (h : s.residual = b - T s.point) : s.rest T = b - T (s.moved T) := by
  rw [State.rest, State.moved, h, map_add, map_smul]
  abel

/-- Where the product is the slope along the direction, a step leads to a residual orthogonal to
the direction. -/
theorem State.inner_rest_direction (hT : T.IsSymmetric)
    (hslope : ⟪s.residual, s.direction⟫_ℝ = s.product)
    (hcurvature : 0 < ⟪s.direction, T s.direction⟫_ℝ) : ⟪s.rest T, s.direction⟫_ℝ = 0 := by
  rw [State.rest, inner_sub_left, real_inner_smul_left, hslope, hT, State.length]
  field_simp
  ring

end

/-- A point that was reached along directions of a space, with its residual, which is orthogonal to
them. -/
structure Reached (T : Vec ℝ n →ₗ[ℝ] Vec ℝ n) (b guess : Vec ℝ n) (P : Submodule ℝ (Vec ℝ n))
    (x r : Vec ℝ n) : Prop where
  residual_eq : r = b - T x
  point_mem : x - guess ∈ P
  orthogonal : ∀ u ∈ P, ⟪r, u⟫_ℝ = 0

/-- No direction leads from the guess to the guess. -/
theorem Reached.initial (T : Vec ℝ n →ₗ[ℝ] Vec ℝ n) (b guess : Vec ℝ n) :
    Reached T b guess (directions []) guess (b - T guess) where
  residual_eq := rfl
  point_mem := by simp
  orthogonal u hu := by
    rw [directions_nil, Submodule.mem_bot] at hu
    simp [hu]

/-- A state from which an iteration can start, after those that started from `done`. -/
structure Head (T M : Vec ℝ n →ₗ[ℝ] Vec ℝ n) (b guess : Vec ℝ n) (done : List (State ℝ n))
    (s : State ℝ n) : Prop extends Reached T b guess (directions done) s.point s.residual where
  product_eq : s.product = ⟪s.residual, M s.residual⟫_ℝ
  /-- The direction is the preconditioned residual but for earlier directions. -/
  direction_sub_mem : s.direction - M s.residual ∈ directions done
  conjugate : ∀ u ∈ directions done, ⟪u, T s.direction⟫_ℝ = 0
  positive : ∀ u ∈ directions done, u ≠ 0 → 0 < ⟪u, T u⟫_ℝ
  image_mem : ∀ u ∈ directions done, M (T u) ∈ directions (done ++ [s])

namespace Head

variable {done : List (State ℝ n)} {s : State ℝ n}

theorem initial (T M : Vec ℝ n →ₗ[ℝ] Vec ℝ n) (b guess : Vec ℝ n) :
    Head T M b guess []
      ⟨guess, b - T guess, M (b - T guess), ⟪b - T guess, M (b - T guess)⟫_ℝ⟩ where
  toReached := .initial T b guess
  product_eq := rfl
  direction_sub_mem := by simp
  conjugate u hu := by
    rw [directions_nil, Submodule.mem_bot] at hu
    simp [hu]
  positive u hu h0 := by
    rw [directions_nil, Submodule.mem_bot] at hu
    exact absurd hu h0
  image_mem u hu := by
    rw [directions_nil, Submodule.mem_bot] at hu
    simp [hu]

/-- The slope along the direction is the product. -/
theorem inner_residual_direction (h : Head T M b guess done s) :
    ⟪s.residual, s.direction⟫_ℝ = s.product := by
  have hsplit : s.direction = M s.residual + (s.direction - M s.residual) := by abel
  rw [hsplit, inner_add_right, h.orthogonal _ h.direction_sub_mem, add_zero, h.product_eq]

theorem le_snoc : directions done ≤ directions (done ++ [s]) :=
  directions_mono fun _ ht => List.mem_append_left _ ht

theorem direction_mem_snoc : s.direction ∈ directions (done ++ [s]) :=
  direction_mem (by simp)

/-- The preconditioned residual lies in the space that the next direction completes. -/
theorem smooth_mem (h : Head T M b guess done s) : M s.residual ∈ directions (done ++ [s]) := by
  have hsplit : M s.residual = s.direction - (s.direction - M s.residual) := by abel
  rw [hsplit]
  exact Submodule.sub_mem _ direction_mem_snoc (le_snoc h.direction_sub_mem)

/-- Where a step leads. -/
theorem reached_next (hT : T.IsSymmetric) (h : Head T M b guess done s)
    (hcurvature : 0 < ⟪s.direction, T s.direction⟫_ℝ) :
    Reached T b guess (directions (done ++ [s])) (s.moved T) (s.rest T) where
  residual_eq := State.rest_eq h.residual_eq
  point_mem := by
    rw [State.moved, add_sub_right_comm]
    exact Submodule.add_mem _ (le_snoc h.point_mem) (Submodule.smul_mem _ _ direction_mem_snoc)
  orthogonal u hu := by
    obtain ⟨v, hv, a, rfl⟩ := exists_of_mem_snoc hu
    have hself := State.inner_rest_direction hT h.inner_residual_direction hcurvature
    have hearlier : ⟪s.rest T, v⟫_ℝ = 0 := by
      rw [State.rest, inner_sub_left, real_inner_smul_left, h.orthogonal v hv, real_inner_comm,
        h.conjugate v hv, mul_zero, sub_zero]
    rw [inner_add_right, real_inner_smul_right, hself, hearlier, mul_zero, add_zero]

/-- The curvature stays positive on the space with one more direction of positive curvature. -/
theorem positive_next (hT : T.IsSymmetric) (h : Head T M b guess done s)
    (hcurvature : 0 < ⟪s.direction, T s.direction⟫_ℝ) :
    ∀ u ∈ directions (done ++ [s]), u ≠ 0 → 0 < ⟪u, T u⟫_ℝ := by
  intro u hu h0
  obtain ⟨v, hv, a, rfl⟩ := exists_of_mem_snoc hu
  have hcross : ⟪s.direction, T v⟫_ℝ = 0 := by
    rw [← hT, real_inner_comm, h.conjugate v hv]
  have hexpand : ⟪v + a • s.direction, T (v + a • s.direction)⟫_ℝ =
      ⟪v, T v⟫_ℝ + a ^ 2 * ⟪s.direction, T s.direction⟫_ℝ := by
    simp only [map_add, map_smul, inner_add_left, inner_add_right, real_inner_smul_left,
      real_inner_smul_right, h.conjugate v hv, hcross]
    ring
  rw [hexpand]
  by_cases hv0 : v = 0
  · have ha : a ≠ 0 := by
      rintro rfl
      simp [hv0] at h0
    rw [hv0]
    simp only [map_zero, inner_zero_left, zero_add]
    positivity
  · have hpos := h.positive v hv hv0
    positivity

/-- Symmetric maps move to the other side together. -/
theorem inner_map_map (hT : T.IsSymmetric) (hM : M.IsSymmetric) (v r : Vec ℝ n) :
    ⟪v, T (M r)⟫_ℝ = ⟪r, M (T v)⟫_ℝ := by
  rw [← hT, ← hM, real_inner_comm]

/-- **The next state is a state of the method again.** -/
theorem head_next (hT : T.IsSymmetric) (hM : M.IsSymmetric) (h : Head T M b guess done s)
    (hcurvature : 0 < ⟪s.direction, T s.direction⟫_ℝ) (hproduct : s.product ≠ 0) :
    Head T M b guess (done ++ [s]) (s.next T M) := by
  have hreached := h.reached_next hT hcurvature
  have hlength : s.length T ≠ 0 := div_ne_zero hproduct hcurvature.ne'
  -- the image of the direction is a combination of the two residuals
  have himage : T s.direction = (s.length T)⁻¹ • (s.residual - s.rest T) := by
    rw [State.rest, sub_sub_cancel, smul_smul, inv_mul_cancel₀ hlength, one_smul]
  have hearlier : ∀ v ∈ directions done, ⟪v, T (s.next T M).direction⟫_ℝ = 0 := by
    intro v hv
    rw [State.next, map_add, map_smul, inner_add_right, real_inner_smul_right, h.conjugate v hv,
      inner_map_map hT hM, hreached.orthogonal _ (h.image_mem v hv), mul_zero, add_zero]
  have hself : ⟪s.direction, T (s.next T M).direction⟫_ℝ = 0 := by
    have hsmooth : ⟪s.rest T, M s.residual⟫_ℝ = 0 := hreached.orthogonal _ h.smooth_mem
    rw [State.next, map_add, map_smul, inner_add_right, real_inner_smul_right, inner_map_map hT hM,
      himage, map_smul, map_sub, real_inner_smul_right, inner_sub_right, hsmooth, ← himage,
      State.length]
    field_simp
    ring
  have hsmooth_next : M (s.rest T) ∈ directions ((done ++ [s]) ++ [s.next T M]) := by
    have hsplit : M (s.rest T) = (s.next T M).direction -
        (⟪s.rest T, M (s.rest T)⟫_ℝ / s.product) • s.direction := by
      rw [State.next, add_sub_cancel_right]
    rw [hsplit]
    exact Submodule.sub_mem _ direction_mem_snoc
      (Submodule.smul_mem _ _ (le_snoc direction_mem_snoc))
  refine { hreached with
    product_eq := rfl
    direction_sub_mem := ?_
    conjugate := ?_
    positive := h.positive_next hT hcurvature
    image_mem := ?_ }
  · rw [State.next, add_sub_cancel_left]
    exact Submodule.smul_mem _ _ direction_mem_snoc
  · intro u hu
    obtain ⟨v, hv, a, rfl⟩ := exists_of_mem_snoc hu
    rw [inner_add_left, real_inner_smul_left, hearlier v hv, hself, mul_zero, add_zero]
  · intro u hu
    obtain ⟨v, hv, a, rfl⟩ := exists_of_mem_snoc hu
    rw [map_add, map_add, map_smul, map_smul, himage, map_smul, map_sub]
    refine Submodule.add_mem _ (le_snoc (h.image_mem v hv)) (Submodule.smul_mem _ _ ?_)
    exact Submodule.smul_mem _ _ (Submodule.sub_mem _ (le_snoc h.smooth_mem) hsmooth_next)

end Head

/-! ## Sequences of states -/

/-- Completed iterations: each started from a state of the method with positive curvature. -/
inductive Heads (T M : Vec ℝ n →ₗ[ℝ] Vec ℝ n) (b guess : Vec ℝ n) : List (State ℝ n) → Prop
  | nil : Heads T M b guess []
  | snoc {done : List (State ℝ n)} {s : State ℝ n} : Heads T M b guess done →
      Head T M b guess done s → 0 < ⟪s.direction, T s.direction⟫_ℝ → Heads T M b guess (done ++ [s])

namespace Heads

variable {heads : List (State ℝ n)}

/-- Every state of the sequence is one of the method after those before it. -/
theorem split (h : Heads T M b guess heads) {before after : List (State ℝ n)} {s : State ℝ n}
    (heq : heads = before ++ s :: after) :
    Head T M b guess before s ∧ 0 < ⟪s.direction, T s.direction⟫_ℝ := by
  induction h generalizing after with
  | nil => simp at heq
  | snoc hdone hs hcurvature ih =>
    rcases List.eq_nil_or_concat after with rfl | ⟨after, last, rfl⟩
    · obtain ⟨rfl, hlast⟩ := List.append_inj' heq rfl
      cases hlast
      exact ⟨hs, hcurvature⟩
    · rw [List.concat_eq_append, ← List.cons_append, ← List.append_assoc] at heq
      obtain ⟨hinit, -⟩ := List.append_inj' heq rfl
      exact ih hinit

theorem positive (hT : T.IsSymmetric) (h : Heads T M b guess heads) :
    ∀ u ∈ directions heads, u ≠ 0 → 0 < ⟪u, T u⟫_ℝ := by
  induction h with
  | nil =>
    intro u hu h0
    rw [directions_nil, Submodule.mem_bot] at hu
    exact absurd hu h0
  | snoc _ hs hcurvature _ => exact hs.positive_next hT hcurvature

end Heads

end Descent.LinearSystem
