import Descent.Proofs.Barrier.Logarithmic
import Descent.Proofs.CentralPath.Inside
import Descent.Proofs.CentralPath.Schedule

/-!
# Certificates of duality

What the certificate of a constrained minimization is worth when scalars are exact real numbers. The
functions of the caller may have effects and may fail; all that is known is which results they
return.

* `CentralPath.stageGradient_exact`: a stage is minimized with the gradient of a Lagrangian;
* `CentralPath.Certificate.Sound`: what a certificate proves about a point;
* `CentralPath.Arrival.sound`: every stage that keeps to the strictly feasible points arrives with a
  sound certificate;
* `certificate_sound`: both constrained minimizers return only sound certificates.
-/

open scoped InnerProductSpace

namespace Descent

/-! ## The gradient of a stage -/

section

variable {σ : Type} [RealText] {n : Nat} {f : Family ℝ σ} {c : Nat → Array ℝ → ℝ}
  {dc : Nat → Vec ℝ n → Vec ℝ n} {gradient : VectorField ℝ σ} {df : Vec ℝ n → Vec ℝ n}

/-- The gradient of a stage is that of the Lagrangian. -/
theorem CentralPath.stageGradient_exact (h : f.Computes c dc)
    (hgradient : ∀ x, (gradient.valueAt "gradient" x).Returns (df x)) (t : ℝ) (x : Vec ℝ n) :
    ((stageGradient gradient (.family f) t).valueAt "gradient" x).Returns
      (f.lagrangian dc df (f.multipliersAt c t x) x) := by
  obtain ⟨a, rfl⟩ := x
  have hfield : (stageGradient gradient (.family f) t a).Returns (.vector
      (f.lagrangian dc df (f.multipliersAt c t (Vec.ofArray a)) (Vec.ofArray a)).toArray) := by
    refine .bind (hgradient _) fun g hg => .bind (f.barrierGradient_exact h _) fun b hb => .pure ?_
    rw [hg, hb, Family.add_divideBy_eq_lagrangian]
  refine .bind hfield fun d hd => .ofExcept fun v hv => ?_
  rw [hd, Datum.toVec_vector] at hv
  cases hv
  rfl

/-! ## What a certificate proves -/

/-- A certificate about the constraints of a family and an objective with gradient `df` is sound at
a point, with multipliers. -/
structure CentralPath.Certificate.Sound (cert : CentralPath.Certificate ℝ)
    (gradient : VectorField ℝ σ) (f : Family ℝ σ) (c : Nat → Array ℝ → ℝ)
    (dc : Nat → Vec ℝ n → Vec ℝ n) (df : Vec ℝ n → Vec ℝ n) (x : Vec ℝ n)
    (dual : Vec ℝ f.count) : Prop where
  optimum : cert.optimum = x.toArray
  multipliers : cert.multipliers = dual.toArray
  dual_eq : dual = f.multipliersAt c cert.scale x
  strict : ∀ i < f.count, c i x.toArray < 0
  scale_pos : 0 < cert.scale
  gap_eq : cert.dualityGap = f.count / cert.scale
  multipliers_pos : ∀ a ∈ dual, 0 < a
  complementary : f.weightedSum c dual x = -cert.dualityGap
  /-- The gradients that callers and the barrier return add up to that of the Lagrangian. -/
  barrier : (gradient.valueAt "gradient" x).Keeps Invariant.none fun a =>
    ((Barrier.family f).gradient x).Keeps Invariant.none fun b =>
      a + Vec.divideBy b cert.scale = f.lagrangian dc df dual x
  /-- So does the gradient that the last stage was minimized with. -/
  stage : ((CentralPath.stageGradient gradient (.family f) cert.scale).valueAt "gradient" x).Returns
    (f.lagrangian dc df dual x)
  /-- No feasible point is better by more than the gap and what the Lagrangian leaves. -/
  bound : ∀ objective : Vec ℝ n → ℝ, Family.Supports objective x (df x) →
    (∀ i < f.count, Family.Supports (fun y => c i y.toArray) x (dc i x)) →
    ∀ y : Vec ℝ n, (∀ i < f.count, c i y.toArray ≤ 0) →
      objective x - objective y ≤
        cert.dualityGap + ⟪f.lagrangian dc df dual x, x - y⟫_ℝ

namespace CentralPath

/-- The points of length `n` where every constraint is strictly satisfied. -/
def StrictAt (f : Family ℝ σ) (c : Nat → Array ℝ → ℝ) (n : Nat) (x : Array ℝ) : Prop :=
  x.size = n ∧ f.Strict c x

theorem family_keptOn (h : f.Computes c dc) (n : Nat) :
    (Barrier.family f).KeptOn Invariant.none (StrictAt f c n) :=
  Family.barrier_keptOn (h.keptOn _) fun _ _ hx hsize hy => ⟨hsize.trans hx.1, hy⟩

/-- A stage at a positive scale arrives with a sound certificate. -/
theorem Arrival.sound (h : f.Computes c dc)
    (hgradient : ∀ x, (gradient.valueAt "gradient" x).Returns (df x)) {stage : Stage ℝ σ}
    {a : Arrival ℝ} (ha : a.At Invariant.none (StrictAt f c n) stage (.family f))
    (hscale : 0 < a.scale) (status : Status) (gaps : List ℝ) :
    ∃ x, (a.certificate status gaps).Sound gradient f c dc df x (f.multipliersAt c a.scale x) := by
  obtain ⟨rfl, hstrict⟩ := ha.inside
  have hneg : ∀ i < f.count, c i a.point < 0 := fun i hi => not_le.1 (hstrict i hi)
  let x := Vec.ofArray a.point
  obtain ⟨s, s', hs, hrun⟩ := ha.multipliers
  have hmultipliers : a.multipliers = (f.multipliersAt c a.scale x).toArray :=
    ((f.multipliers_exact h a.scale x).of_ok hs hrun).2
  have hgap : a.gap = f.count / a.scale := by
    rw [ha.gap, hmultipliers, Vector.size_toArray]
    rfl
  have hpos : ∀ b ∈ f.multipliersAt c a.scale x, 0 < b := Family.multipliersAt_pos hneg hscale
  have hsum : f.weightedSum c (f.multipliersAt c a.scale x) x = -a.gap := by
    rw [Family.weightedSum_multipliersAt hneg, hgap]
  refine ⟨x, ?_⟩
  exact
    { optimum := rfl
      multipliers := hmultipliers
      dual_eq := rfl
      strict := hneg
      scale_pos := hscale
      gap_eq := hgap
      multipliers_pos := hpos
      complementary := hsum
      barrier := (hgradient x).mono fun a' ha' => (f.barrierGradient_exact h x).mono fun b hb => by
        rw [ha', hb, Family.add_divideBy_eq_lagrangian]
        rfl
      stage := stageGradient_exact h hgradient a.scale x
      bound := fun objective hobjective hconstraints y hy =>
        Family.sub_le_gap_add hpos hsum hobjective hconstraints hy }

/-- No feasible point is better than `x` by more than the gap of the certificate and `tolerance`
times its distance. -/
def Certificate.Reaches (cert : Certificate ℝ) (f : Family ℝ σ) (c : Nat → Array ℝ → ℝ)
    (dc : Nat → Vec ℝ n → Vec ℝ n) (df : Vec ℝ n → Vec ℝ n) (x : Vec ℝ n) (tolerance : ℝ) : Prop :=
  ∀ objective : Vec ℝ n → ℝ, Family.Supports objective x (df x) →
    (∀ i < f.count, Family.Supports (fun y => c i y.toArray) x (dc i x)) →
    ∀ y : Vec ℝ n, (∀ i < f.count, c i y.toArray ≤ 0) →
      objective x - objective y ≤ cert.dualityGap + tolerance * Vec.norm (x - y)

/-- With a small gradient the bound does not depend on the direction. -/
theorem Certificate.Sound.reaches {cert : Certificate ℝ} {x : Vec ℝ n} {dual : Vec ℝ f.count}
    (h : cert.Sound gradient f c dc df x dual) {tolerance : ℝ}
    (hnorm : Vec.norm (f.lagrangian dc df (f.multipliersAt c cert.scale x) x) < tolerance) :
    cert.Reaches f c dc df x tolerance := by
  intro objective hobjective hconstraints y hy
  have hbound := h.bound objective hobjective hconstraints y hy
  have hcauchy := real_inner_le_norm (f.lagrangian dc df dual x) (x - y)
  have hmono : ‖f.lagrangian dc df dual x‖ * ‖x - y‖ ≤ tolerance * ‖x - y‖ := by
    rw [h.dual_eq]
    exact mul_le_mul_of_nonneg_right hnorm.le (norm_nonneg _)
  rw [Vec.norm_eq_norm]
  linarith

variable {value : Option (ScalarField ℝ σ)} {hessian : Tensor ℝ σ} {start : Datum ℝ}
  {path : Options ℝ} {conjugate : Conjugate.Options ℝ σ} {newton : Newton.Options ℝ σ}
  {preconditioner : Option (Preconditioner ℝ σ)}

/-- The certificate of a path with stages that go from strictly feasible points to such points. -/
theorem followFrom_sound (h : f.Computes c dc)
    (hgradient : ∀ x, (gradient.valueAt "gradient" x).Returns (df x)) {w : Vec ℝ n}
    (hstart : start.toVector "w0" = .ok w.toArray) (hstrict : ∀ i < f.count, c i w.toArray < 0)
    {stage : Stage ℝ σ} (hstage : stage.Inside Invariant.none (StrictAt f c n))
    {E : Array ℝ → ℝ → Prop}
    (hends : ∀ x t smoother, (stage x t smoother).Keeps Invariant.none fun y => E y t)
    {schedule : Schedule ℝ} (hschedule : path.schedule = .ok schedule) :
    (followFrom stage (.family f) schedule preconditioner start).Keeps Invariant.none fun cert =>
      ∃ x dual, cert.Sound gradient f c dc df x dual ∧ E cert.optimum cert.scale := by
  have hinside : ∀ w', start.toVector "w0" = .ok w' → StrictAt f c n w' := by
    intro w' hw'
    cases hstart.symm.trans hw'
    exact ⟨w.size_toArray, fun i hi => not_le.2 (hstrict i hi)⟩
  refine (followFrom_keeps (W := (0 < ·)) hinside hstage (fun t x _ => Run.keeps_none _)
    (fun p _ t => (Run.keeps_none (p t)).mono fun tensor _ => tensor.keptOn_none _)
    (fun t ht => Options.initialScale_pos hschedule ht)
    fun t factor ht hfactor => Options.scale_pos hschedule ht hfactor).mono ?_
  rintro _ ⟨a, ha, hscale, status, gaps, rfl⟩
  obtain ⟨x, hsound⟩ := Arrival.sound h hgradient ha hscale status gaps
  obtain ⟨y, smoother, -, s, s', hs, hrun⟩ := ha.stage
  exact ⟨x, _, hsound, ((hends y a.scale smoother).of_ok hs hrun).2⟩

end CentralPath

open CentralPath

/-- **Certificates are sound.** From a strictly feasible start both constrained minimizers return
only certificates with positive multipliers, weighted with which the constraints add up to minus the
gap and the gradients to that of the last stage. So for convex functions no feasible point is better
by more than the gap and what that gradient leaves; if the gradient norm ended the last stage, that
is its tolerance times the distance. -/
theorem certificate_sound (value : Option (ScalarField ℝ σ)) (hessian : Tensor ℝ σ)
    (start : Datum ℝ) (path : CentralPath.Options ℝ) (conjugate : Conjugate.Options ℝ σ)
    (newton : Newton.Options ℝ σ) (preconditioner : Option (Preconditioner ℝ σ))
    (h : f.Computes c dc) (hgradient : ∀ x, (gradient.valueAt "gradient" x).Returns (df x))
    (w : Vec ℝ n) (hstart : start.toVector "w0" = .ok w.toArray)
    (hstrict : ∀ i < f.count, c i w.toArray < 0) :
    ((minimizeConjugateConstrained value gradient start (.family f) path conjugate
        preconditioner).Keeps Invariant.none fun cert => ∃ x dual,
      cert.Sound gradient f c dc df x dual ∧
      (∃ exit, Conjugate.Ends (stageGradient gradient (.family f) cert.scale) conjugate
        (outside (.family f)) cert.optimum exit) ∧
      ∀ tolerance, conjugate.stop.toCriterion = .ok (.gradientNorm tolerance) →
        Conjugate.Ends (stageGradient gradient (.family f) cert.scale) conjugate
          (outside (.family f)) cert.optimum .criterion →
        cert.Reaches f c dc df x tolerance) ∧
    ((minimizeNewtonConstrained gradient hessian start (.family f) path newton
        preconditioner).Keeps Invariant.none fun cert => ∃ x dual,
      cert.Sound gradient f c dc df x dual ∧
      (∃ exit, Newton.Ends (stageGradient gradient (.family f) cert.scale)
        (stageHessian hessian (.family f) cert.scale) newton (outside (.family f)) cert.optimum
        exit) ∧
      ∀ tolerance, newton.stop.toCriterion = .ok (.gradientNorm tolerance) →
        Newton.Ends (stageGradient gradient (.family f) cert.scale)
          (stageHessian hessian (.family f) cert.scale) newton (outside (.family f)) cert.optimum
          .criterion →
        cert.Reaches f c dc df x tolerance) := by
  constructor
  · refine .check fun schedule hschedule => ?_
    have hinside : (conjugateStage value gradient (.family f) conjugate).Inside Invariant.none
        (StrictAt f c n) :=
      conjugateStage_inside (fun f _ x _ => Run.keeps_none (f x)) (fun x _ => Run.keeps_none _)
        (family_keptOn h n) (conjugate.stop.kept_none)
    refine (followFrom_sound h hgradient hstart hstrict hinside
      (fun x t smoother => minimizeConjugate_ends _ _ _ _ _ _) hschedule).mono ?_
    rintro cert ⟨x, dual, hsound, hends⟩
    refine ⟨x, dual, hsound, hends, fun tolerance hstop hcriterion => hsound.reaches ?_⟩
    rw [hsound.optimum] at hcriterion
    exact Conjugate.norm_lt_of_ends (stageGradient_exact h hgradient cert.scale) hstop hcriterion
  · refine .check fun schedule hschedule => ?_
    have hinside : (newtonStage gradient hessian (.family f) newton).Inside Invariant.none
        (StrictAt f c n) :=
      newtonStage_inside (fun x _ => Run.keeps_none _) (hessian.keptOn_none _) (family_keptOn h n)
        newton.stop.kept_none
    refine .refusing ((followFrom_sound h hgradient hstart hstrict hinside
      (fun x t smoother => minimizeNewton_ends _ _ _ _ _ _) hschedule).mono ?_)
    rintro cert ⟨x, dual, hsound, hends⟩
    refine ⟨x, dual, hsound, hends, fun tolerance hstop hcriterion => hsound.reaches ?_⟩
    rw [hsound.optimum] at hcriterion
    exact Newton.norm_lt_of_ends (stageGradient_exact h hgradient cert.scale) hstop hcriterion

end

section

open CentralPath

/-- The numbers below one. -/
noncomputable def halfLine : Family ℝ Unit where
  count := 1
  value _ x := return x.getD 0 0 - 1
  gradient _ _ := return .vector #[1]
  hessian := none
  hessianDiagonal := none

/-- The gradient of half the square. -/
def identityField : VectorField ℝ Unit := fun x => return .vector x

/-- Every stage ends where the norm of its gradient is below one. -/
noncomputable def unitNorm : Conjugate.Options ℝ Unit where
  stop := .criterion (.gradientNorm 1)

theorem computes_halfLine [RealText] :
    halfLine.Computes (fun _ x => x.getD 0 0 - 1) fun _ (_ : Vec ℝ 1) => #v[1] where
  value _ _ := .pure rfl
  gradient _ _ := .bind (R := (· = .vector #[1])) (.pure rfl) fun d hd => .ofExcept fun v hv => by
    rw [hd] at hv
    exact Except.ok.inj (hv.symm.trans (Datum.toVec_vector _ #v[(1 : ℝ)]))

theorem identityField_returns [RealText] {n : Nat} (x : Vec ℝ n) :
    (identityField.valueAt "gradient" x).Returns x :=
  .bind (R := (· = .vector x.toArray)) (.pure rfl) fun d hd => .ofExcept fun v hv => by
    rw [hd, Datum.toVec_vector] at hv
    exact (Except.ok.inj hv).symm

/-- Half the square of a number below one is minimized from zero: where the gradient norm ended the
last stage, no number below one is better by more than the gap and the distance to it. -/
theorem certificate_sound_halfLine :
    letI := RealText.mute
    (minimizeConjugateConstrained none identityField (.vector #[0]) (.family halfLine) {} unitNorm
      none).Keeps Invariant.none fun cert => ∃ x : Vec ℝ 1, cert.optimum = x.toArray ∧
        (Conjugate.Ends (stageGradient identityField (.family halfLine) cert.scale) unitNorm
          (outside (.family halfLine)) cert.optimum .criterion → ∀ y : Vec ℝ 1, y[0] ≤ 1 →
            x[0] ^ 2 / 2 - y[0] ^ 2 / 2 ≤ cert.dualityGap + 1 * Vec.norm (x - y)) := by
  let _ := RealText.mute
  have hzero : ∀ i < halfLine.count, (#v[(0 : ℝ)] : Vec ℝ 1).toArray.getD 0 0 - 1 < 0 := by
    intro i _
    norm_num
  have hsound := (certificate_sound none (.constant (.operator .identity)) (.vector #[0]) {}
    unitNorm {} none computes_halfLine identityField_returns #v[0] rfl hzero).1
  refine hsound.mono ?_
  rintro cert ⟨x, dual, hcert, -, hreaches⟩
  refine ⟨x, hcert.optimum, fun hends y hy => ?_⟩
  have hsquare : Family.Supports (fun y : Vec ℝ 1 => y[0] ^ 2 / 2) x x := by
    intro z
    rw [← Vec.dot_eq_inner, Vec.dot_eq_sum, Fin.sum_univ_one]
    simp only [Fin.getElem_fin, Fin.val_zero, Vector.getElem_sub]
    nlinarith [sq_nonneg (z[0] - x[0])]
  have hline : ∀ i < halfLine.count,
      Family.Supports (fun y : Vec ℝ 1 => y.toArray.getD 0 0 - 1) x #v[1] := by
    intro i _ z
    rw [← Vec.dot_eq_inner, Vec.dot_eq_sum, Fin.sum_univ_one]
    simp
  exact hreaches 1 rfl hends _ hsquare hline y fun i _ => by simpa using hy

end

end Descent
