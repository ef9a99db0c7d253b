import Descent.Proofs.Exact.Operator
import Descent.Proofs.Minimize.Lockstep
import Descent.Proofs.Minimize.Scaling
import Descent.Proofs.CentralPath.Bookkeeping

/-!
# Stages as minimizations of `t f + φ`

A stage at scale `t` minimizes `f + φ / t` with `t M` in place of the preconditioner `M` that was
made for `t f + φ`. To conjugate gradients this is the minimization of `t f + φ` with `M`, stopped
at a tolerance that is `t` times as large.

* `Operator.Scales`, `Tensor.Scales`: homogeneous operators, which take `c` times a vector to `c`
  times its image;
* `Conjugate.smooth_related_inverse`, `Conjugate.smooth_related_direct`: multiples of the
  preconditioner and of the gradient that make up for each other;
* `minimizeConjugate_scaled`: minimizations with the gradient `c df` and the preconditioner `M / c`,
  and stages, go through the same steps as those that they stand for.
-/

namespace Descent

section

variable {α σ : Type} [Numeral α]

/-- A tensor whose operators are multiplied by a factor. -/
def Tensor.scaled (factor : α) (tensor : Tensor α σ) : Tensor α σ :=
  .varying fun x => do
    let op ← tensor.operatorAt (Vec.ofArray x)
    return .operator (op.scaled factor)

/-- A gradient that is multiplied by a factor. -/
def VectorField.scaled (factor : α) (gradient : VectorField α σ) : VectorField α σ := fun x => do
  let g ← gradient.valueAt "gradient" (Vec.ofArray x)
  return .vector (factor * g).toArray

/-- The gradient of `t f + φ`. -/
def CentralPath.pathGradient (gradient : VectorField α σ) (barrier : Barrier α σ) (t : α) :
    VectorField α σ := fun x => do
  let a ← gradient.valueAt "gradient" (Vec.ofArray x)
  let b ← barrier.gradient (Vec.ofArray x)
  return .vector (t * a + b).toArray

theorem Tensor.operatorAt_scaled (factor : α) (tensor : Tensor α σ) {n : Nat} (x : Vec α n) :
    (tensor.scaled factor).operatorAt x =
      tensor.operatorAt x >>= fun op => pure (op.scaled factor) := by
  obtain ⟨a, rfl⟩ := x
  simp only [scaled, operatorAt, bind_assoc, pure_bind]
  rfl

theorem VectorField.valueAt_scaled (factor : α) (gradient : VectorField α σ) {n : Nat}
    (x : Vec α n) : (gradient.scaled factor).valueAt "gradient" x =
      gradient.valueAt "gradient" x >>= fun g => pure (factor * g) := by
  obtain ⟨a, rfl⟩ := x
  refine valueAt_eq ?_ "gradient"
  simp only [bind_assoc, pure_bind]
  rfl

/-- The preconditioner of a stage is a multiple of the one that was made. -/
theorem CentralPath.stagePreconditioner_some (preconditioner : Preconditioner α σ) (t : α) :
    stagePreconditioner (some preconditioner) t =
      preconditioner t >>= fun tensor => pure (some (tensor.scaled t)) :=
  rfl

theorem CentralPath.valueAt_stageGradient (gradient : VectorField α σ) (barrier : Barrier α σ)
    (t : α) {n : Nat} (x : Vec α n) : (stageGradient gradient barrier t).valueAt "gradient" x =
      gradient.valueAt "gradient" x >>= fun a => barrier.gradient x >>= fun b =>
        pure (a + Vec.divideBy b t) := by
  obtain ⟨a, rfl⟩ := x
  refine VectorField.valueAt_eq ?_ "gradient"
  simp only [bind_assoc, pure_bind]
  rfl

theorem CentralPath.valueAt_pathGradient (gradient : VectorField α σ) (barrier : Barrier α σ)
    (t : α) {n : Nat} (x : Vec α n) : (pathGradient gradient barrier t).valueAt "gradient" x =
      gradient.valueAt "gradient" x >>= fun a => barrier.gradient x >>= fun b =>
        pure (t * a + b) := by
  obtain ⟨a, rfl⟩ := x
  refine VectorField.valueAt_eq ?_ "gradient"
  simp only [bind_assoc, pure_bind]
  rfl

end

variable {σ : Type} [RealText] {J : Session ℝ σ → Session ℝ σ → Prop} {c : ℝ}

/-! ## Homogeneous operators -/

/-- To `c` times a vector the second operator does what the first does to the vector, and its image
is `c` times that of the first. -/
def Operator.Scales (J : Session ℝ σ → Session ℝ σ → Prop) (c : ℝ) (first second : Operator ℝ σ) :
    Prop :=
  ∀ {n : Nat} (v : Vec ℝ n), Run.Related J (fun a b => b = c • a) (first.apply v)
    (second.apply (c • v))

/-- The operators of two tensors at one point correspond. -/
def Tensor.Scales (J : Session ℝ σ → Session ℝ σ → Prop) (c : ℝ) (first second : Tensor ℝ σ) :
    Prop :=
  ∀ {n : Nat} (x : Vec ℝ n), Run.Related J (Operator.Scales J c) (first.operatorAt x)
    (second.operatorAt x)

/-- A multiple of an operator does what the operator does. -/
theorem Operator.apply_scaled_related (op : Operator ℝ σ) (factor : ℝ) {n : Nat} (v : Vec ℝ n) :
    Run.Related Eq (fun a b => b = factor • a) (op.apply v) ((op.scaled factor).apply v) := by
  -- the multiple asks for the size before the operator does, and refuses in its place
  by_cases hfits : ∃ size, op.size? = some size ∧ size ≠ n
  · obtain ⟨size, hsize, hne⟩ := hfits
    have hscaled : (op.scaled factor).size? = some size := hsize
    rw [apply_of_misfit hsize hne, apply_of_misfit hscaled hne]
    exact .throw
  · have hpass : (op.scaled factor).fits n = pure () :=
      fits_eq_pure fun size hsize => by_contra fun hne => hfits ⟨size, hsize, hne⟩
    rw [apply, hpass, pure_bind]
    refine Run.Related.pure_right (.refl _) ?_
    rintro a _ rfl
    exact Vec.hmul_eq_smul factor a

namespace Operator.Scales

variable {first second : Operator ℝ σ} {n : Nat}

/-- Divided by `c`, the second operator has the images of the first. -/
theorem inverse (h : first.Scales J c second) (hc : c ≠ 0) (v : Vec ℝ n) :
    Run.Related J Eq (first.apply v) ((second.scaled (1 / c)).apply (c • v)) := by
  refine ((h v).trans (second.apply_scaled_related (1 / c) (c • v))).mono ?_
  rintro a b ⟨_, rfl, rfl⟩
  rw [smul_smul, one_div, inv_mul_cancel₀ hc, one_smul]

/-- Multiplied by `c`, the first operator has the images of the second. -/
theorem direct (h : first.Scales J c second) (v : Vec ℝ n) :
    Run.Related J Eq ((first.scaled c).apply v) (second.apply (c • v)) := by
  refine ((h v).symm.trans (first.apply_scaled_related c v)).symm.mono ?_
  rintro b d ⟨a, hd, hb⟩
  rw [hb, hd]

end Operator.Scales

namespace Conjugate

variable {n : Nat} {tensor tensor' : Tensor ℝ σ}

theorem smooth_related_inverse (h : tensor.Scales J c tensor') (hc : c ≠ 0) (x g : Vec ℝ n) :
    Run.Related J Eq (smooth (some tensor) x g)
      (smooth (some (tensor'.scaled (1 / c))) x (c • g)) := by
  simp only [smooth, Tensor.operatorAt_scaled, bind_assoc, pure_bind]
  exact .bind (h x) fun op op' hop => hop.inverse hc g

theorem smooth_related_direct (h : tensor.Scales J c tensor') (x g : Vec ℝ n) :
    Run.Related J Eq (smooth (some (tensor.scaled c)) x g) (smooth (some tensor') x (c • g)) := by
  simp only [smooth, Tensor.operatorAt_scaled, bind_assoc, pure_bind]
  exact .bind (h x) fun op op' hop => hop.direct g

end Conjugate

/-! ## Scaled gradients -/

theorem VectorField.scaled_related {gradient : VectorField ℝ σ}
    (h : ∀ x, (gradient x).Respects J) {n : Nat} (x : Vec ℝ n) :
    Run.Related J (fun g h => h = c • g) (gradient.valueAt "gradient" x)
      ((gradient.scaled c).valueAt "gradient" x) := by
  rw [valueAt_scaled]
  refine (valueAt_respects h "gradient" x).pure_right ?_
  rintro g _ rfl
  exact Vec.hmul_eq_smul c g

namespace CentralPath

variable {gradient : VectorField ℝ σ} {barrier : Barrier ℝ σ} {t : ℝ}

/-- The gradient of `t f + φ` is `t` times that of the stage. -/
theorem pathGradient_related (ht : t ≠ 0) (hgradient : ∀ x, (gradient x).Respects J)
    (hbarrier : ∀ {n : Nat} (x : Vec ℝ n), (barrier.gradient x).Respects J) {n : Nat}
    (x : Vec ℝ n) :
    Run.Related J (fun g h => h = t • g) ((stageGradient gradient barrier t).valueAt "gradient" x)
      ((pathGradient gradient barrier t).valueAt "gradient" x) := by
  rw [valueAt_stageGradient, valueAt_pathGradient]
  refine .bind (VectorField.valueAt_respects hgradient "gradient" x) ?_
  rintro a _ rfl
  refine .bind (hbarrier x) ?_
  rintro b _ rfl
  refine .pure ?_
  rw [Vec.hmul_eq_smul, Vec.divideBy_eq_smul, smul_add, smul_inv_smul₀ ht]

end CentralPath

/-! ## Minimizations and stages -/

/-- Records in lock-step announce the same point. -/
theorem Conjugate.announce_agree {first second : Run ℝ σ (Record ℝ)}
    (h : Run.Related J (fun p q => q = Record.scaled c p) first second)
    (value value' : Option (ScalarField ℝ σ)) :
    Run.Agree J (first >>= announce value) (second >>= announce value') := by
  intro s t s' t' y z hst hs ht
  obtain ⟨p, s₁, hp, hs⟩ := Run.bind_eq_ok hs
  obtain ⟨q, t₁, hq, ht⟩ := Run.bind_eq_ok ht
  obtain ⟨-, rfl⟩ := h.of_ok hst hp hq
  have hy := ((announce_returns value p).of_ok trivial hs).2
  have hz := ((announce_returns value' (Record.scaled c p)).of_ok trivial ht).2
  exact hy.trans hz.symm

open Conjugate CentralPath in
/-- **Stages minimize `t f + φ`.** A minimization by conjugate gradients with the gradient `c df`,
the preconditioner `M / c` and the tolerance `c tol` goes through the same states as one with `df`,
`M` and `tol`, but for the factor `c` of the gradients and of their products, and returns the same
point. So does a stage at scale `t` beside the minimization with the gradient of `t f + φ`, the
preconditioner that was made for it and the tolerance `t tol`. Minimizations do what their records
do. -/
theorem minimizeConjugate_scaled :
    (∀ (value : Option (ScalarField ℝ σ)) (gradient : VectorField ℝ σ) (start : Datum ℝ)
      (options : Conjugate.Options ℝ σ) (outside : Region ℝ σ)
      (preconditioner : Option (Tensor ℝ σ)),
      minimizeConjugate value gradient start options outside preconditioner =
        record gradient start options outside preconditioner >>= announce value) ∧
    (∀ {c tolerance : ℝ} {gradient : VectorField ℝ σ} {options : Conjugate.Options ℝ σ}
      {outside : Region ℝ σ} {preconditioner : Tensor ℝ σ} (start : Datum ℝ), 0 < c →
      options.stop.toCriterion = .ok (.gradientNorm tolerance) →
      (∀ x, (gradient x).Respects J) → (∀ x, (outside x).Respects J) →
      preconditioner.Scales J c preconditioner →
      Run.Related J (fun p q => q = Record.scaled c p)
        (record gradient start options outside (some preconditioner))
        (record (gradient.scaled c) start (options.stoppedAt (c * tolerance)) outside
          (some (preconditioner.scaled (1 / c)))) ∧
      ∀ value value', Run.Agree J
        (minimizeConjugate value gradient start options outside (some preconditioner))
        (minimizeConjugate value' (gradient.scaled c) start (options.stoppedAt (c * tolerance))
          outside (some (preconditioner.scaled (1 / c))))) ∧
    (∀ {t tolerance : ℝ} {gradient : VectorField ℝ σ} {barrier : Barrier ℝ σ}
      {options : Conjugate.Options ℝ σ} {preconditioner : Preconditioner ℝ σ} (x : Array ℝ), 0 < t →
      options.stop.toCriterion = .ok (.gradientNorm tolerance) →
      (∀ x, (gradient x).Respects J) →
      (∀ {n : Nat} (x : Vec ℝ n), (barrier.gradient x).Respects J) →
      (∀ x, (CentralPath.outside barrier x).Respects J) →
      Run.Related J (Tensor.Scales J t) (preconditioner t) (preconditioner t) →
      Run.Related J (fun p q => q = Record.scaled t p)
        (do
          let smoother ← stagePreconditioner (some preconditioner) t
          record (stageGradient gradient barrier t) (.vector x) options
            (CentralPath.outside barrier) smoother)
        (do
          let tensor ← preconditioner t
          record (pathGradient gradient barrier t) (.vector x) (options.stoppedAt (t * tolerance))
            (CentralPath.outside barrier) (some tensor)) ∧
      ∀ value value', Run.Agree J
        (do
          let smoother ← stagePreconditioner (some preconditioner) t
          conjugateStage value gradient barrier options x t smoother)
        (do
          let tensor ← preconditioner t
          minimizeConjugate value' (pathGradient gradient barrier t) (.vector x)
            (options.stoppedAt (t * tolerance)) (CentralPath.outside barrier) (some tensor))) := by
  refine ⟨minimizeConjugate_eq_record, ?_, ?_⟩
  · intro c tolerance gradient options outside preconditioner start hc hstop hgradient houtside
      hscales
    have hrecords : Run.Related J (fun p q => q = Record.scaled c p)
        (record gradient start options outside (some preconditioner))
        (record (gradient.scaled c) start (options.stoppedAt (c * tolerance)) outside
          (some (preconditioner.scaled (1 / c)))) :=
      record_related hc hstop (fun x => VectorField.scaled_related hgradient x)
        (fun x g => smooth_related_inverse hscales hc.ne' x g) houtside
    refine ⟨hrecords, fun value value' => ?_⟩
    rw [minimizeConjugate_eq_record, minimizeConjugate_eq_record]
    exact announce_agree hrecords value value'
  · intro t tolerance gradient barrier options preconditioner x ht hstop hgradient hbarrier houtside
      hscales
    have hrecords : Run.Related J (fun p q => q = Record.scaled t p)
        (stagePreconditioner (some preconditioner) t >>= fun smoother =>
          record (stageGradient gradient barrier t) (.vector x) options
            (CentralPath.outside barrier) smoother)
        (preconditioner t >>= fun tensor =>
          record (pathGradient gradient barrier t) (.vector x) (options.stoppedAt (t * tolerance))
            (CentralPath.outside barrier) (some tensor)) := by
      rw [stagePreconditioner_some, bind_assoc]
      simp only [pure_bind]
      refine .bind hscales fun tensor tensor' htensor => ?_
      exact record_related ht hstop (fun x => pathGradient_related ht.ne' hgradient hbarrier x)
        (fun x g => smooth_related_direct htensor x g) houtside
    refine ⟨hrecords, fun value value' => ?_⟩
    have hagree := announce_agree hrecords (some (stageValue value barrier t)) value'
    simp only [bind_assoc, ← minimizeConjugate_eq_record] at hagree
    exact hagree

/-! ## An indefinite preconditioner -/

theorem Operator.diagonal_scales (factors : Array ℝ) :
    (Operator.diagonal factors : Operator ℝ σ).Scales J c (.diagonal factors) := by
  intro n v
  unfold apply
  by_cases h : factors.size = n
  · rw [dif_pos h, dif_pos h]
    refine .pure ?_
    ext i hi
    simp [Vec.times, mul_left_comm]
  · rw [dif_neg h, dif_neg h]
    exact .throw

omit [RealText] in
open Conjugate CentralPath in
/-- A minimization and a stage with an indefinite preconditioner, scaled by two. -/
theorem minimizeConjugate_scaled_indefinite :
    letI := RealText.mute
    let field : VectorField ℝ Unit := fun x => return .vector x
    let preconditioner : Tensor ℝ Unit := .constant (.operator (.diagonal #[1, -1]))
    Run.Related Eq (fun p q => q = Record.scaled 2 p)
      (record field (.vector #[1, 1]) {} Region.everywhere (some preconditioner))
      (record (field.scaled 2) (.vector #[1, 1]) (Options.stoppedAt {} (2 * 1e-8)) Region.everywhere
        (some (preconditioner.scaled (1 / 2)))) ∧
    Run.Agree Eq
      (do
        let smoother ← stagePreconditioner (some fun _ => return preconditioner) 2
        conjugateStage none field (.family unitBall) {} #[1 / 2, 0] 2 smoother)
      (do
        let tensor ← pure preconditioner
        minimizeConjugate none (pathGradient field (.family unitBall) 2) (.vector #[1 / 2, 0])
          (Options.stoppedAt {} (2 * 1e-8)) (CentralPath.outside (.family unitBall))
          (some tensor)) := by
  let _ := RealText.mute
  intro field preconditioner
  have hscales : preconditioner.Scales Eq 2 preconditioner :=
    fun x => .pure (Operator.diagonal_scales #[1, -1])
  obtain ⟨-, minimize, stage⟩ := minimizeConjugate_scaled (σ := Unit) (J := Eq)
  constructor
  · exact (minimize (.vector #[1, 1]) two_pos rfl (fun _ => .refl _) (fun _ => .refl _) hscales).1
  · exact (stage #[1 / 2, 0] two_pos rfl (fun _ => .refl _) (fun _ => .refl _) (fun _ => .refl _)
      (.pure @hscales)).2 none none

end Descent
