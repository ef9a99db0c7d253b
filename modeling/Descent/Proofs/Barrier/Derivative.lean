import Mathlib.Analysis.Calculus.LineDeriv.Basic
import Mathlib.Analysis.SpecialFunctions.Log.Deriv
import Descent.Proofs.Barrier.Logarithmic
import Descent.Proofs.Exact.Operator

/-!
# The derivatives of the logarithmic barrier

Value, gradient and second derivative of the logarithmic barrier are three sums over the constraints
`cᵢ`, which are computed separately. Over the reals they are derivatives of one another along every
direction in which the values, gradients and second derivatives of the constraints are.

* `Family.EvaluatesAt`: what a family returns at a point.
* `Family.logValue`, `Family.logGradient`, `Family.logHessian`: the three sums;
  `Family.barrierValue_yields`, `Family.barrierGradient_yields`, `Family.barrierHessian_ensures`:
  the barrier returns them.
* `Family.hasLineDerivAt_logValue`, `Family.hasLineDerivAt_logGradient`: each is the derivative of
  the one before.
-/

open scoped InnerProductSpace

namespace Descent

/-- A list of results, each of which belongs to its item. -/
theorem Run.Ensures.mapM {α σ β γ : Type} {I : Invariant α σ} {f : β → Run α σ γ}
    {Q : β → γ → Prop} (items : List β) (h : ∀ b ∈ items, (f b).Ensures I (Q b)) :
    (items.mapM f).Ensures I (List.Forall₂ Q items) := by
  induction items with
  | nil => exact .pure .nil
  | cons item items ih =>
    rw [List.mapM_cons]
    obtain ⟨hitem, hitems⟩ := List.forall_mem_cons.1 h
    refine .bind hitem fun c hc => .bind (ih hitems) fun results hresults => ?_
    exact .pure (.cons hc hresults)

namespace Family

variable {σ : Type} {n : Nat} {I : Invariant ℝ σ} {f : Family ℝ σ} {c : Nat → Vec ℝ n → ℝ}
  {dc : Nat → Vec ℝ n → Vec ℝ n} {d2c : Nat → Vec ℝ n → Vec ℝ n → Vec ℝ n} {x v : Vec ℝ n}

/-! ## The sums -/

/-- The logarithmic barrier. -/
noncomputable def logValue (f : Family ℝ σ) (c : Nat → Vec ℝ n → ℝ) (x : Vec ℝ n) : ℝ :=
  -∑ i : Fin f.count, Real.log (-c i x)

/-- Its gradient. -/
noncomputable def logGradient (f : Family ℝ σ) (c : Nat → Vec ℝ n → ℝ)
    (dc : Nat → Vec ℝ n → Vec ℝ n) (x : Vec ℝ n) : Vec ℝ n :=
  ∑ i : Fin f.count, (1 / -c i x) • dc i x

/-- Its second derivative, applied to a vector. -/
noncomputable def logHessian (f : Family ℝ σ) (c : Nat → Vec ℝ n → ℝ)
    (dc : Nat → Vec ℝ n → Vec ℝ n) (d2c : Nat → Vec ℝ n → Vec ℝ n → Vec ℝ n) (x v : Vec ℝ n) :
    Vec ℝ n :=
  ∑ i : Fin f.count, ((Vec.dot (dc i x) v / (c i x * c i x)) • dc i x + (1 / -c i x) • d2c i x v)

/-- One summand of the value: minus the logarithm of the slack. -/
theorem hasLineDerivAt_log {c : Vec ℝ n → ℝ} {slope : ℝ} (hc : HasLineDerivAt ℝ c slope x v)
    (hx : c x ≠ 0) : HasLineDerivAt ℝ (fun y => Real.log (-c y)) (-slope / -c x) x v := by
  have hslack : HasDerivAt (fun ε : ℝ => -c (x + ε • v)) (-slope) 0 := hc.neg
  have hne : -c (x + (0 : ℝ) • v) ≠ 0 := by simpa using hx
  simpa [HasLineDerivAt] using hslack.log hne

/-- **The gradient of the barrier is the derivative of its value.** -/
theorem hasLineDerivAt_logValue (hx : ∀ i < f.count, c i x ≠ 0)
    (hc : ∀ i < f.count, HasLineDerivAt ℝ (c i) (Vec.dot (dc i x) v) x v) :
    HasLineDerivAt ℝ (f.logValue c) (Vec.dot (f.logGradient c dc x) v) x v := by
  have hterm (i : Fin f.count) : HasDerivAt (fun ε : ℝ => Real.log (-c i (x + ε • v)))
      (-Vec.dot (dc i x) v / -c i x) 0 := hasLineDerivAt_log (hc i i.isLt) (hx i i.isLt)
  refine (HasDerivAt.fun_sum fun i _ => hterm i).neg.congr_deriv ?_
  rw [logGradient, Vec.dot_eq_inner, sum_inner, ← Finset.sum_neg_distrib]
  refine Finset.sum_congr rfl fun i _ => ?_
  rw [real_inner_smul_left, Vec.dot_eq_inner]
  ring

/-- One summand of the gradient: the gradient of the constraint, weighted with one over the slack.
-/
theorem hasLineDerivAt_weighted {c : Vec ℝ n → ℝ} {dc : Vec ℝ n → Vec ℝ n} {slope : ℝ}
    {dslope : Vec ℝ n} (hc : HasLineDerivAt ℝ c slope x v)
    (hdc : HasLineDerivAt ℝ dc dslope x v) (hx : c x ≠ 0) :
    HasLineDerivAt ℝ (fun y => (1 / -c y) • dc y)
      ((slope / (c x * c x)) • dc x + (1 / -c x) • dslope) x v := by
  have hslack : HasDerivAt (fun ε : ℝ => -c (x + ε • v)) (-slope) 0 := hc.neg
  have hne : -c (x + (0 : ℝ) • v) ≠ 0 := by simpa using hx
  have hweight : HasDerivAt (fun ε : ℝ => 1 / -c (x + ε • v)) (slope / (c x * c x)) 0 := by
    refine ((hslack.fun_inv hne).congr_deriv ?_).congr_of_eventuallyEq (.of_forall fun ε => ?_)
    · simp [pow_two]
    · exact one_div _
  refine (hweight.fun_smul hdc).congr_deriv ?_
  simp [add_comm]

/-- **The second derivative of the barrier is the derivative of its gradient.** -/
theorem hasLineDerivAt_logGradient (hx : ∀ i < f.count, c i x ≠ 0)
    (hc : ∀ i < f.count, HasLineDerivAt ℝ (c i) (Vec.dot (dc i x) v) x v)
    (hdc : ∀ i < f.count, HasLineDerivAt ℝ (dc i) (d2c i x v) x v) :
    HasLineDerivAt ℝ (f.logGradient c dc) (f.logHessian c dc d2c x v) x v := by
  have hterm (i : Fin f.count) : HasDerivAt
      (fun ε : ℝ => (1 / -c i (x + ε • v)) • dc i (x + ε • v))
      ((Vec.dot (dc i x) v / (c i x * c i x)) • dc i x + (1 / -c i x) • d2c i x v) 0 :=
    hasLineDerivAt_weighted (hc i i.isLt) (hdc i i.isLt) (hx i i.isLt)
  exact HasDerivAt.fun_sum fun i _ => hterm i

/-! ## What the barrier computes -/

variable [RealText]

/-- What the functions of a family return at a point: values, gradients, and second derivatives,
which are zero where there are none. -/
structure EvaluatesAt (I : Invariant ℝ σ) (f : Family ℝ σ) (c : Nat → Vec ℝ n → ℝ)
    (dc : Nat → Vec ℝ n → Vec ℝ n) (d2c : Nat → Vec ℝ n → Vec ℝ n → Vec ℝ n) (x : Vec ℝ n) :
    Prop where
  value : ∀ i < f.count, (f.value i x.toArray).Yields I (c i x)
  gradient : ∀ i < f.count, ((f.gradient i).valueAt "constraint gradient" x).Yields I (dc i x)
  hessian : ∀ hessian ∈ f.hessian, ∀ i < f.count,
    ((hessian i).operatorAt x).Ensures I fun op => op.Applies I (d2c i x)
  linear : f.hessian = none → ∀ i < f.count, ∀ v, d2c i x v = 0

theorem slack_ensures (h : ∀ i < f.count, (f.value i x.toArray).Yields I (c i x)) :
    (f.slack x).Ensures I fun s => ∀ i : Fin f.count, s.get i = -c i x := by
  refine .bind (Run.Ensures.ofFnM fun i => h i i.isLt) fun values hvalues => .pure fun i => ?_
  have hvalue : values[i] = c i x := hvalues i
  change (-values)[i] = -c i x
  rw [Fin.getElem_fin, Vector.getElem_neg, ← Fin.getElem_fin, hvalue]

theorem gradients_ensures
    (h : ∀ i < f.count, ((f.gradient i).valueAt "constraint gradient" x).Yields I (dc i x)) :
    (f.gradients x).Ensures I fun jacobian => ∀ i : Fin f.count, jacobian.get i = dc i x :=
  .ofFnM fun i => h i i.isLt

theorem barrierValue_yields (h : f.EvaluatesAt I c dc d2c x) :
    (f.barrierValue x).Yields I (f.logValue c x) := by
  refine Run.Ensures.bind (slack_ensures h.value) fun s hs => .pure ?_
  rw [Vec.foldl_add_eq_sum, logValue]
  congr 1
  refine Finset.sum_congr rfl fun i _ => ?_
  rw [← hs i]
  simp only [Fin.getElem_fin, Vector.getElem_map]
  rfl

/-- The weighted sum of the gradients of the constraints. -/
theorem barrierGradient_yields (h : f.EvaluatesAt I c dc d2c x) :
    (f.barrierGradient x).Yields I (f.logGradient c dc x) := by
  refine Run.Ensures.bind (slack_ensures h.value) fun s hs => ?_
  refine .bind (gradients_ensures h.gradient) fun jacobian hjacobian => .pure ?_
  rw [Mat.applyTransposed_eq_sum, logGradient]
  refine Finset.sum_congr rfl fun i _ => ?_
  have hslack : s[i] = -c i x := hs i
  have hrow : jacobian[i] = dc i x := hjacobian i
  rw [hrow, ← hslack]
  simp only [Fin.getElem_fin, Vector.getElem_map]

/-- The curvatures are added up one after the other. -/
theorem addCurvature_yields {m : Nat} {terms : Fin m → ℝ × Operator ℝ σ}
    {A : Fin m → Vec ℝ n → Vec ℝ n} (h : ∀ i, (terms i).2.Applies I (A i)) (sum : Vec ℝ n) :
    (addCurvature v sum (List.ofFn terms)).Yields I
      (sum + ∑ i, (1 / (terms i).1) • A i v) := by
  induction m generalizing sum with
  | zero => simpa [addCurvature] using Run.Yields.pure
  | succ m ih =>
    rw [List.ofFn_succ, Fin.sum_univ_succ, ← add_assoc]
    refine .bind (h 0 v) ?_
    rw [Vec.divideBy_eq_smul, ← one_div]
    exact ih (fun i => h i.succ) _

/-- The curvatures of the constraints with their slacks, or none at all if the constraints are
linear. -/
theorem curvatures_ensures (h : f.EvaluatesAt I c dc d2c x) {s : Vec ℝ f.count}
    (hs : ∀ i : Fin f.count, s.get i = -c i x) :
    (f.curvatures x).Ensures I fun ops => ∀ v sum : Vec ℝ n,
      (addCurvature v sum (s.toList.zip ops)).Yields I
        (sum + ∑ i : Fin f.count, (1 / -c i x) • d2c i x v) := by
  unfold curvatures
  cases hhessian : f.hessian with
  | none =>
    refine .pure fun v sum => ?_
    have hzero : ∑ i : Fin f.count, (1 / -c i x) • d2c i x v = 0 :=
      Finset.sum_eq_zero fun i _ => by rw [h.linear hhessian i i.isLt v, smul_zero]
    rw [hzero, add_zero, List.zip_nil_right]
    exact .pure
  | some hessian =>
    refine (Run.Ensures.mapM (List.range f.count) fun i hi => h.hessian hessian hhessian i
      (List.mem_range.1 hi)).mono fun ops hops v sum => ?_
    obtain ⟨hlength, hops⟩ := List.forall₂_iff_get.1 hops
    rw [List.length_range] at hlength
    have hterms : s.toList.zip ops =
        List.ofFn fun i : Fin f.count => (s.get i, ops.get (i.cast hlength)) := by
      apply List.ext_getElem
      · simp [← hlength]
      · intro i _ _
        simp
        rfl
    have hops (i : Fin f.count) : (ops.get (i.cast hlength)).Applies I (d2c i x) := by
      simpa using hops i (by simp) (i.cast hlength).isLt
    rw [hterms]
    simpa only [hs] using addCurvature_yields hops sum

/-- The first part weighs the gradients with their slopes along the vector, and the curvatures are
added to it. -/
theorem barrierHessian_ensures (h : f.EvaluatesAt I c dc d2c x) :
    (f.barrierHessian x).Ensures I fun op => op.Applies I (f.logHessian c dc d2c x) := by
  refine .bind (slack_ensures h.value) fun s hs => ?_
  refine .bind (gradients_ensures h.gradient) fun jacobian hjacobian => ?_
  refine .bind (curvatures_ensures h hs) fun ops hops => .pure fun v => ?_
  have hslopes : Mat.applyTransposed jacobian
      (Vec.divide (Mat.apply jacobian v) (Vec.times s s)) =
        ∑ i : Fin f.count, (Vec.dot (dc i x) v / (c i x * c i x)) • dc i x := by
    rw [Mat.applyTransposed_eq_sum]
    refine Finset.sum_congr rfl fun i _ => ?_
    have hslack : s[i] = -c i x := hs i
    have hrow : jacobian[i] = dc i x := hjacobian i
    rw [hrow, ← neg_mul_neg, ← hslack, ← hrow]
    simp [Vec.divide, Vec.times, Mat.apply]
  have himage : (applyHessian s jacobian ops v).Yields I (f.logHessian c dc d2c x v) := by
    rw [logHessian, Finset.sum_add_distrib, ← hslopes]
    exact hops v _
  rw [Operator.apply_function (dif_pos v.size_toArray)]
  exact himage

end Family

end Descent
