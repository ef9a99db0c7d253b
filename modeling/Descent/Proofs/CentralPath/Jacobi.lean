import Descent.Proofs.Barrier.Diagonal
import Descent.Proofs.CentralPath.Derivative
import Descent.Proofs.Minimize.Stranded

/-!
# The Jacobi preconditioner of a stage

A stage at scale `t` minimizes `f + φ / t`, and its preconditioner is `t` times the one that was
made for `t f + φ`. Over the reals this is the inverse of the diagonal of the operator that the
stage hands to Newton steps, with `t` in the place of what is not positive.

* `Jacobi.stageEntry`: the entries of the preconditioner of a stage.
* `Family.stageJacobi_ensures`: the preconditioner at a point; `Family.stageJacobi_keeps`: whatever
  the functions return, it is positive definite.
* `jacobi_stage`: the stages with this preconditioner.
-/

open scoped InnerProductSpace

namespace Descent

open LinearSystem (PositiveDefinite diagonalMap positiveDefinite_diagonalMap)

section

variable {σ : Type} [RealText] {n : Nat} {I : Invariant ℝ σ} {t : ℝ}

/-! ## The preconditioner -/

namespace Jacobi

/-- The entry of the preconditioner of a stage at scale `t` where the diagonal has the entry `h`. -/
noncomputable def stageEntry (t h : ℝ) : ℝ := if 0 < h then 1 / h else t

omit [RealText] in
theorem stageEntry_pos (ht : 0 < t) (h : ℝ) : 0 < stageEntry t h := by
  unfold stageEntry
  split
  · exact one_div_pos.2 ‹_›
  · exact ht

/-- The scale with which the preconditioner is multiplied cancels that of the diagonal. -/
theorem mul_inverseEntry (ht : 0 < t) (h : ℝ) : t * inverseEntry (t * h) = stageEntry t h := by
  have hfinite : Scalar.isFinite (t * h) = true := rfl
  simp only [inverseEntry, stageEntry, hfinite, Bool.true_and, decide_eq_true_eq,
    mul_pos_iff_of_pos_left ht]
  split
  · field_simp
  · exact mul_one t

/-- The inverse of a diagonal acts as a diagonal map. -/
theorem inverse_applies (d : Vec ℝ n) :
    (inverse d.toArray : Operator ℝ σ).Applies I (diagonalMap (d.map inverseEntry)) := by
  intro v
  have hsize : (d.toArray.map inverseEntry).size = n := by simp
  rw [inverse, Operator.apply, dif_pos hsize]
  exact .pure

/-- Scaled as in a stage, the inverse of a multiple of a diagonal has the entries of the stage. -/
theorem scaled_inverse_applies (ht : 0 < t) (d : Vec ℝ n) :
    ((inverse (t • d).toArray : Operator ℝ σ).scaled t).Applies I
      (diagonalMap (d.map (stageEntry t))) := by
  intro v
  have hmap : t • diagonalMap ((t • d).map inverseEntry) v =
      diagonalMap (d.map (stageEntry t)) v := by
    ext j hj
    simp [← Vec.hmul_eq_smul, diagonalMap, Vec.times, ← mul_inverseEntry ht, mul_assoc]
  rw [← hmap]
  exact (inverse_applies (t • d)).scaled t v

omit [RealText] in
theorem positiveDefinite_stageEntry (ht : 0 < t) (d : Vec ℝ n) :
    PositiveDefinite (diagonalMap (d.map (stageEntry t))) := by
  refine positiveDefinite_diagonalMap fun a ha => ?_
  obtain ⟨h, -, rfl⟩ := Vector.mem_map.1 ha
  exact stageEntry_pos ht h

end Jacobi

namespace Family

variable {f : Family ℝ σ} {objective : VectorField ℝ σ} {c : Nat → Vec ℝ n → ℝ}
  {dc : Nat → Vec ℝ n → Vec ℝ n} {d2c : Nat → Vec ℝ n → Vec ℝ n → Vec ℝ n} {x : Vec ℝ n}
  {d : Vec ℝ n}

theorem operatorAt_jacobi (f : Family ℝ σ) (objective : VectorField ℝ σ) (t : ℝ) (x : Vec ℝ n) :
    (f.jacobi objective t).operatorAt x =
      objective.valueAt "Hessian diagonal" x >>= fun d => f.barrierDiagonal x >>= fun b =>
        pure (Jacobi.inverse (t * d + b).toArray) := by
  obtain ⟨a, rfl⟩ := x
  refine Tensor.operatorAt_eq ?_
  rfl

/-- The preconditioner for `t f + φ` inverts the diagonal of its second derivative. -/
theorem jacobi_yields (h : f.EvaluatesAt I c dc d2c x) (hdiagonal : f.DiagonalAt I d2c x)
    (hobjective : (objective.valueAt "Hessian diagonal" x).Yields I d) (t : ℝ) :
    ((f.jacobi objective t).operatorAt x).Yields I
      (Jacobi.inverse (t * d + Vec.diagonalOf (f.logHessian c dc d2c x)).toArray) := by
  rw [operatorAt_jacobi]
  exact hobjective.bind ((barrierDiagonal_yields h hdiagonal).bind .pure)

/-- Whatever the functions return, the preconditioner inverts some diagonal. -/
theorem jacobi_keeps (f : Family ℝ σ) (objective : VectorField ℝ σ) (t : ℝ) (x : Vec ℝ n) :
    ((f.jacobi objective t).operatorAt x).Keeps Invariant.none fun op =>
      ∃ d : Vec ℝ n, op = Jacobi.inverse d.toArray := by
  rw [operatorAt_jacobi]
  exact .bind (Run.keeps_none _) fun d _ => .bind (Run.keeps_none _) fun b _ => .pure ⟨_, rfl⟩

/-- The preconditioner of a stage inverts the diagonal of its operator. -/
theorem stageJacobi_ensures (ht : 0 < t) (h : f.EvaluatesAt I c dc d2c x)
    (hdiagonal : f.DiagonalAt I d2c x)
    (hobjective : (objective.valueAt "Hessian diagonal" x).Yields I d) :
    (((f.jacobi objective t).scaled t).operatorAt x).Ensures I (·.Applies I (diagonalMap
      ((d + (1 / t) • Vec.diagonalOf (f.logHessian c dc d2c x)).map (Jacobi.stageEntry t)))) := by
  have hmultiple : t * d + Vec.diagonalOf (f.logHessian c dc d2c x) =
      t • (d + (1 / t) • Vec.diagonalOf (f.logHessian c dc d2c x)) := by
    rw [Vec.hmul_eq_smul, smul_add, smul_smul, mul_one_div_cancel ht.ne', one_smul]
  rw [Tensor.operatorAt_scaled]
  refine .bind (jacobi_yields h hdiagonal hobjective t) fun op hop => .pure ?_
  rw [hop, hmultiple]
  exact Jacobi.scaled_inverse_applies ht _

/-- Whatever the functions return, the preconditioner of a stage is positive definite. -/
theorem stageJacobi_keeps (ht : 0 < t) (f : Family ℝ σ) (objective : VectorField ℝ σ)
    (x : Vec ℝ n) :
    (((f.jacobi objective t).scaled t).operatorAt x).Keeps Invariant.none fun op =>
      ∃ M : Vec ℝ n →ₗ[ℝ] Vec ℝ n, PositiveDefinite M ∧ op.Applies Invariant.none M := by
  rw [Tensor.operatorAt_scaled]
  refine .bind (jacobi_keeps f objective t x) fun op ⟨d, hop⟩ => .pure ?_
  have hmultiple : d = t • t⁻¹ • d := (smul_inv_smul₀ ht.ne' d).symm
  rw [hop, hmultiple]
  exact ⟨_, Jacobi.positiveDefinite_stageEntry ht _, Jacobi.scaled_inverse_applies ht _⟩

end Family

/-! ## The stages -/

open CentralPath Conjugate in
/-- **The Jacobi preconditioner of a stage.** It is the scaled preconditioner of the family. At a
point where the diagonals of the constraints and of the objective are those of their second
derivatives, the operator that a stage hands to Newton steps has the diagonal of the objective plus
that of the barrier over the scale, and the preconditioner inverts it, with the scale in the place
of what is not positive. Whatever the functions return, it is positive definite, and a stage
minimized by conjugate gradients that ends without a direction ends where its gradient is zero. -/
theorem jacobi_stage (ht : 0 < t) (f : Family ℝ σ) (objective : VectorField ℝ σ) :
    stagePreconditioner (some fun t => pure (f.jacobi objective t)) t =
      pure (some ((f.jacobi objective t).scaled t)) ∧
    (∀ {n : Nat} {I : Invariant ℝ σ} {c : Nat → Vec ℝ n → ℝ} {dc : Nat → Vec ℝ n → Vec ℝ n}
      {d2c : Nat → Vec ℝ n → Vec ℝ n → Vec ℝ n} {d2f : Vec ℝ n → Vec ℝ n} {hessian : Tensor ℝ σ}
      {x : Vec ℝ n}, f.EvaluatesAt I c dc d2c x → f.DiagonalAt I d2c x →
      (hessian.operatorAt x).Ensures I (·.Applies I d2f) →
      (objective.valueAt "Hessian diagonal" x).Yields I (Vec.diagonalOf d2f) →
      (f.barrierDiagonal x).Yields I (Vec.diagonalOf (f.logHessian c dc d2c x)) ∧
      ∃ H : Vec ℝ n,
        (∀ j, Vec.entry H j = Vec.entry (Vec.diagonalOf d2f) j +
          Vec.entry (Vec.diagonalOf (f.logHessian c dc d2c x)) j / t) ∧
        ((stageHessian hessian (.family f) t).operatorAt x).Ensures I (fun op =>
          ∀ j, (op.apply (Vec.unit j)).Ensures I fun w => Vec.entry w j = Vec.entry H j) ∧
        (((f.jacobi objective t).scaled t).operatorAt x).Ensures I
          (·.Applies I (diagonalMap (H.map fun h => if 0 < h then 1 / h else t))) ∧
        PositiveDefinite (diagonalMap (H.map fun h => if 0 < h then 1 / h else t))) ∧
    (∀ {n : Nat} (x : Vec ℝ n),
      (((f.jacobi objective t).scaled t).operatorAt x).Keeps Invariant.none fun op =>
        ∃ M : Vec ℝ n →ₗ[ℝ] Vec ℝ n, PositiveDefinite M ∧ op.Applies Invariant.none M) ∧
    ∀ (value : Option (ScalarField ℝ σ)) (gradient : VectorField ℝ σ)
      (options : Conjugate.Options ℝ σ) (start : Array ℝ),
      conjugateStage value gradient (.family f) options start t
          (some ((f.jacobi objective t).scaled t)) =
        record (stageGradient gradient (.family f) t) (.vector start) options (outside (.family f))
          (some ((f.jacobi objective t).scaled t)) >>=
            announce (some (stageValue value (.family f) t)) ∧
      (record (stageGradient gradient (.family f) t) (.vector start) options (outside (.family f))
        (some ((f.jacobi objective t).scaled t))).Keeps Invariant.none fun r =>
          r.2.report.exit = .noDescent → r.2.report.gradient = 0 ∧
            ((stageGradient gradient (.family f) t).valueAt "gradient" r.2.report.point).Gives
              r.2.report.gradient := by
  refine ⟨rfl, ?_, fun x => f.stageJacobi_keeps ht objective x, fun value gradient options start =>
    ⟨minimizeConjugate_eq_record _ _ _ _ _ _, record_stranded
      (fun x => f.stageJacobi_keeps ht objective x) _ _ _ _⟩⟩
  intro n I c dc d2c d2f hessian x h hdiagonal hhessian hobjective
  refine ⟨f.barrierDiagonal_yields h hdiagonal,
    Vec.diagonalOf fun w => d2f w + (1 / t) • f.logHessian c dc d2c x w, fun j => ?_, ?_, ?_, ?_⟩
  · rw [Vec.diagonalOf_add, Vec.diagonalOf_smul, ← Vec.hmul_eq_smul]
    simp [Vec.entry, div_eq_inv_mul]
  · refine (stageHessian_ensures h hhessian t).mono fun op hop j => ?_
    refine .of_yields (hop (Vec.unit j)) ?_
    rw [Vec.entry_diagonalOf]
  · rw [Vec.diagonalOf_add, Vec.diagonalOf_smul]
    exact f.stageJacobi_ensures ht h hdiagonal hobjective
  · exact Jacobi.positiveDefinite_stageEntry ht _

/-! ## The unit ball -/

omit [RealText] in
theorem Vec.diagonalOf_self :
    Vec.diagonalOf (fun v : Vec ℝ n => v) = Vector.replicate n 1 := by
  ext j hj
  simp [Vec.diagonalOf, Vec.unit, Vec.entry]

/-- The vector field with one value in all entries. -/
def VectorField.uniform (a : ℝ) : VectorField ℝ σ := fun x => return .vector (x.map fun _ => a)

theorem VectorField.valueAt_uniform (a : ℝ) (name : String) (x : Vec ℝ n) :
    ((VectorField.uniform a : VectorField ℝ σ).valueAt name x).Yields I (Vector.replicate n a) := by
  have hmap : x.toArray.map (fun _ => a) = (Vector.replicate n a).toArray := by
    apply Array.ext <;> simp
  rw [valueAt, uniform, hmap]
  exact .bind .pure (.ofExcept (Datum.toVec_vector name _))

theorem curvedBall_diagonalAt (x : Vec ℝ n) :
    curvedBall.DiagonalAt Invariant.none (fun _ _ v => v + v) x where
  both := rfl
  diagonal diagonal hdiagonal i _ := by
    cases hdiagonal
    rw [Vec.diagonalOf_add, Vec.diagonalOf_self, Vec.add_replicate]
    exact VectorField.valueAt_uniform (1 + 1) _ x

end

/-- The preconditioner of the unit ball for an objective with the second derivative one, at scale 2
and the point `(1/2, 1/2)`: there the diagonal of the barrier is 8 and that of the stage 5. -/
theorem jacobi_stage_ball : let _ := RealText.mute
    let x : Vec ℝ 2 := Vector.replicate 2 (1 / 2)
    (curvedBall.barrierDiagonal x).Yields Invariant.none (Vector.replicate 2 8) ∧
    (((curvedBall.jacobi (.uniform 1) 2).scaled 2).operatorAt x).Ensures Invariant.none
      (·.Applies Invariant.none (diagonalMap (Vector.replicate 2 (1 / 5)))) := by
  intro _ x
  have hc : Vec.dot x x - 1 = -(1 / 2) := by
    rw [Vec.dot_replicate]
    norm_num
  have hdc : x + x = Vector.replicate 2 1 := by
    rw [Vec.add_replicate]
    norm_num
  have hbarrier : Vec.diagonalOf (curvedBall.logHessian (fun _ x => Vec.dot x x - 1)
      (fun _ x => x + x) (fun _ _ v => v + v) x) = Vector.replicate 2 8 := by
    rw [Family.diagonalOf_logHessian]
    refine (Fin.sum_univ_one _).trans ?_
    simp only [Family.diagonalTerm, hc, hdc, Vec.diagonalOf_add, Vec.diagonalOf_self,
      Vec.add_replicate]
    ext j hj
    simp [Vec.times, Vec.divideBy]
    norm_num
  have hobjective := Vec.diagonalOf_self (n := 2)
  have hidentity : ((Tensor.constant (.operator .identity) : Tensor ℝ Unit).operatorAt x).Ensures
      Invariant.none (·.Applies Invariant.none fun v : Vec ℝ 2 => v) := .pure fun w => .pure
  obtain ⟨-, hpoint, -⟩ := jacobi_stage two_pos curvedBall (.uniform 1)
  obtain ⟨hdiagonal, H, hH, -, hsmoother, -⟩ := hpoint (curvedBall_evaluatesAt x)
    (curvedBall_diagonalAt x) hidentity (hobjective ▸ VectorField.valueAt_uniform 1 _ x)
  rw [hbarrier] at hdiagonal hH
  have hentry (j : Fin 2) : Vec.entry H j = 5 := by
    rw [hH, hobjective]
    simp only [Vec.entry, Fin.getElem_fin, Vector.getElem_replicate]
    norm_num
  have hentries : H.map (fun h => if 0 < h then 1 / h else 2) = Vector.replicate 2 (1 / 5) := by
    ext j hj
    have hj : H[j] = 5 := hentry ⟨j, hj⟩
    rw [Vector.getElem_map, hj, Vector.getElem_replicate, if_pos (by norm_num)]
  rw [hentries] at hsmoother
  exact ⟨hdiagonal, hsmoother⟩

end Descent
