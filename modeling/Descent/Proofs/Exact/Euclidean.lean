import Mathlib.Analysis.InnerProductSpace.Symmetric
import Mathlib.LinearAlgebra.Dimension.Constructions
import Descent.Proofs.Collections
import Descent.Proofs.Exact.Real
import Descent.Vec

/-!
# Vectors of exact real numbers

With the products and norms of `Vec` the vectors of `n` real numbers are a Euclidean space.

* `Vec.dot_eq_inner`, `Vec.norm_eq_norm`: its inner product and norm are those that solvers compute;
* `Vec.hmul_eq_smul`, `Vec.along_eq`, `Vec.divideBy_eq_smul`: so are its multiples;
* `Mat.applyTransposed_eq_sum`: the transposed matrix forms a linear combination of the rows;
* `Vec.finrank_eq`: the dimension is `n`.
-/

open scoped InnerProductSpace

namespace Descent

namespace Vec

variable {n : Nat}

/-! ## The vector space -/

/-- The entries of a vector as a function. -/
def entry (v : Vector ℝ n) (i : Fin n) : ℝ := v[i]

theorem entry_injective : Function.Injective (entry (n := n)) := by
  intro u v h
  ext i hi
  exact congrFun h ⟨i, hi⟩

noncomputable instance instAddCommGroup : AddCommGroup (Vector ℝ n) :=
  Function.Injective.addCommGroup entry entry_injective
    (by ext; simp [entry]) (by intros; ext; simp [entry]) (by intros; ext; simp [entry])
    (by intros; ext; simp [entry]) (by intros; ext; simp [entry]) (by intros; ext; simp [entry])

noncomputable instance instModule : Module ℝ (Vector ℝ n) :=
  Function.Injective.module ℝ
    { toFun := entry, map_zero' := by ext; simp [entry], map_add' := by intros; ext; simp [entry] }
    entry_injective (by intros; ext; simp [entry])

theorem hmul_eq_smul (c : ℝ) (v : Vec ℝ n) : c * v = c • v := by
  ext i hi
  simp

theorem along_eq (x : Vec ℝ n) (length : ℝ) (d : Vec ℝ n) : along x length d = x + length • d := by
  rw [along, hmul_eq_smul]

theorem divideBy_eq_smul (v : Vec ℝ n) (c : ℝ) : divideBy v c = c⁻¹ • v := by
  ext i hi
  simp [divideBy, div_eq_inv_mul]

/-! ## The inner product -/

/-- Adding up from left to right is adding up. -/
theorem foldl_add_eq_sum {M : Type} [AddCommMonoid M] (v : Vector M n) :
    v.foldl (· + ·) 0 = ∑ i : Fin n, v[i] := by
  rw [← Vector.sum_eq_foldl, ← Vector.sum_toList, Vector.sum_toList_eq]
  rfl

theorem getElem_times (u v : Vec ℝ n) (i : Fin n) : (times u v)[i] = u[i] * v[i] := by
  simp [times]

theorem dot_eq_sum (u v : Vec ℝ n) : dot u v = ∑ i : Fin n, u[i] * v[i] := by
  rw [dot, foldl_add_eq_sum]
  exact Finset.sum_congr rfl fun i _ => getElem_times u v i

noncomputable instance instInnerProductSpaceCore : InnerProductSpace.Core ℝ (Vector ℝ n) where
  inner u v := dot u v
  conj_inner_symm u v := by
    simp only [dot_eq_sum, conj_trivial]
    exact Finset.sum_congr rfl fun i _ => mul_comm _ _
  re_inner_nonneg v := by
    rw [dot_eq_sum, RCLike.re_to_real]
    exact Finset.sum_nonneg fun (i : Fin n) _ => mul_self_nonneg v[i]
  add_left u v w := by
    simp only [dot_eq_sum, ← Finset.sum_add_distrib]
    exact Finset.sum_congr rfl fun i _ => by simp [add_mul]
  smul_left u v c := by
    simp only [dot_eq_sum, Finset.mul_sum, conj_trivial]
    exact Finset.sum_congr rfl fun i _ => by simp [mul_assoc]
  definite v h := by
    rw [dot_eq_sum, Finset.sum_eq_zero_iff_of_nonneg fun (i : Fin n) _ => mul_self_nonneg v[i]] at h
    ext i hi
    simpa using h ⟨i, hi⟩ (Finset.mem_univ _)

noncomputable instance instNormedAddCommGroup : NormedAddCommGroup (Vector ℝ n) :=
  instInnerProductSpaceCore.toNormedAddCommGroup

noncomputable instance instInnerProductSpace : InnerProductSpace ℝ (Vector ℝ n) :=
  .ofCore instInnerProductSpaceCore.toCore

theorem dot_eq_inner (u v : Vec ℝ n) : dot u v = ⟪u, v⟫_ℝ := rfl

theorem norm_eq_norm (v : Vec ℝ n) : norm v = ‖v‖ := rfl

/-! ## The dimension -/

/-- Vectors and functions of the index are the same. -/
def entryEquiv (n : Nat) : Vector ℝ n ≃ₗ[ℝ] (Fin n → ℝ) where
  toFun := entry
  invFun := Vector.ofFn
  map_add' u v := by ext; simp [entry]
  map_smul' c v := by ext; simp [entry]
  left_inv v := by ext; simp [entry]
  right_inv f := by ext; simp [entry]

instance instFiniteDimensional : FiniteDimensional ℝ (Vector ℝ n) :=
  (entryEquiv n).symm.finiteDimensional

theorem finrank_eq (n : Nat) : Module.finrank ℝ (Vector ℝ n) = n := by
  rw [(entryEquiv n).finrank_eq, Module.finrank_fin_fun]

end Vec

/-- The transposed matrix forms a linear combination of the rows. -/
theorem Mat.applyTransposed_eq_sum {m n : Nat} (rows : Mat ℝ m n) (w : Vec ℝ m) :
    Mat.applyTransposed rows w = ∑ i : Fin m, w[i] • rows[i] := by
  have hterm : ∀ (sum : Vec ℝ n) (p : Vec ℝ n × ℝ), sum + p.1.map (· * p.2) = sum + p.2 • p.1 := by
    intro sum p
    ext i hi
    simp [mul_comm]
  have hfold := Vec.foldl_add_eq_sum ((Vector.zip rows w).map fun p => p.2 • p.1)
  rw [Vector.foldl_map] at hfold
  simp only [Mat.applyTransposed, hterm]
  rw [show Vec.zeros n = (0 : Vec ℝ n) from rfl, hfold]
  exact Finset.sum_congr rfl fun i _ => by simp

end Descent
