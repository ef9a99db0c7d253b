import Descent.Proofs.Exact.Euclidean

/-!
# Other coordinates

A `Frame` has orthogonal axes and an origin of its own. Directions are turned into it, points are
turned and moved.

* `Frame.turn`, `Frame.turnBack`, `Frame.place`, `Frame.locate`: directions and points in a frame,
  and back again;
* `Frame.turn_add`, `Frame.turn_along`, `Frame.place_along` and their like: what is made of vectors
  is made of their images in the same way;
* `Frame.dot_turn`, `Frame.norm_turn`: products and norms are the same in every frame.
-/

open scoped InnerProductSpace

namespace Descent

/-- Coordinates with orthogonal axes and an origin of their own. -/
structure Frame (n : Nat) where
  axes : Mat ℝ n n
  origin : Vec ℝ n
  /-- The transposed matrix undoes the matrix. -/
  orthogonal : ∀ v, Mat.applyTransposed axes (Mat.apply axes v) = v

/-- The transposed matrix is the adjoint one. -/
theorem Mat.inner_apply {m n : Nat} (rows : Mat ℝ m n) (v : Vec ℝ n) (w : Vec ℝ m) :
    ⟪Mat.apply rows v, w⟫_ℝ = ⟪v, Mat.applyTransposed rows w⟫_ℝ := by
  rw [← Vec.dot_eq_inner, Vec.dot_eq_sum, applyTransposed_eq_sum, inner_sum]
  refine Finset.sum_congr rfl fun i _ => ?_
  have hentry : (Mat.apply rows v)[i] = ⟪v, rows[i]⟫_ℝ := by
    rw [real_inner_comm, ← Vec.dot_eq_inner]
    simp [Mat.apply]
  rw [hentry, inner_smul_right, mul_comm]

namespace Frame

variable {n : Nat} (F : Frame n)

/-- A direction in the frame. -/
noncomputable def turn (v : Vec ℝ n) : Vec ℝ n := Mat.apply F.axes v

/-- A direction of the frame in the coordinates outside. -/
noncomputable def turnBack (w : Vec ℝ n) : Vec ℝ n := Mat.applyTransposed F.axes w

/-- A point in the frame. -/
noncomputable def place (x : Vec ℝ n) : Vec ℝ n := F.turn x + F.origin

/-- A point of the frame in the coordinates outside. -/
noncomputable def locate (y : Vec ℝ n) : Vec ℝ n := F.turnBack (y - F.origin)

@[simp]
theorem turnBack_turn (v : Vec ℝ n) : F.turnBack (F.turn v) = v := F.orthogonal v

/-- Turning as an isometry. -/
noncomputable def isometry : Vec ℝ n →ₗᵢ[ℝ] Vec ℝ n where
  toFun := F.turn
  map_add' u v := by
    refine ext_inner_right ℝ fun w => ?_
    simp only [turn, Mat.inner_apply, inner_add_left]
  map_smul' c v := by
    refine ext_inner_right ℝ fun w => ?_
    simp only [turn, Mat.inner_apply, real_inner_smul_left, RingHom.id_apply]
  norm_map' v := by
    have hsquare : ⟪F.turn v, F.turn v⟫_ℝ = ⟪v, v⟫_ℝ := by
      rw [turn, Mat.inner_apply, F.orthogonal]
    rw [LinearMap.coe_mk, AddHom.coe_mk, norm_eq_sqrt_real_inner, hsquare,
      ← norm_eq_sqrt_real_inner]

theorem turn_add (u v : Vec ℝ n) : F.turn (u + v) = F.turn u + F.turn v := F.isometry.map_add u v

theorem turn_sub (u v : Vec ℝ n) : F.turn (u - v) = F.turn u - F.turn v := F.isometry.map_sub u v

theorem turn_neg (v : Vec ℝ n) : F.turn (-v) = -F.turn v := F.isometry.map_neg v

theorem turn_zeros : F.turn (Vec.zeros n) = Vec.zeros n := F.isometry.map_zero

theorem turn_hmul (c : ℝ) (v : Vec ℝ n) : F.turn (c * v) = c * F.turn v := by
  rw [Vec.hmul_eq_smul, Vec.hmul_eq_smul]
  exact F.isometry.map_smul c v

theorem turn_along (x : Vec ℝ n) (length : ℝ) (d : Vec ℝ n) :
    F.turn (Vec.along x length d) = Vec.along (F.turn x) length (F.turn d) := by
  rw [Vec.along, turn_add, turn_hmul, Vec.along]

/-- Products are the same in every frame. -/
theorem dot_turn (u v : Vec ℝ n) : Vec.dot (F.turn u) (F.turn v) = Vec.dot u v :=
  F.isometry.inner_map_map u v

/-- Norms are the same in every frame. -/
theorem norm_turn (v : Vec ℝ n) : Vec.norm (F.turn v) = Vec.norm v := F.isometry.norm_map v

@[simp]
theorem locate_place (x : Vec ℝ n) : F.locate (F.place x) = x := by
  rw [locate, place, add_sub_cancel_right, turnBack_turn]

theorem place_injective : Function.Injective F.place :=
  Function.LeftInverse.injective F.locate_place

theorem place_along (x : Vec ℝ n) (length : ℝ) (d : Vec ℝ n) :
    F.place (Vec.along x length d) = Vec.along (F.place x) length (F.turn d) := by
  rw [place, turn_along, place, Vec.along, Vec.along, add_right_comm]

end Frame

end Descent
