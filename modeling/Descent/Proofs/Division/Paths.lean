import Descent.Proofs.CentralPath.Comparison
import Descent.Proofs.CentralPath.Duality
import Descent.Proofs.Division.Barriers

/-!
# Quotients that are checked: central paths

Constrained minimizers with every quotient checked, as in `Descent.Proofs.Division.Solvers`. Over
the reals they do the same as without the checks, as all scales are positive.

* `CentralPath.followFromOr_compares`: a path does not divide by zero if its stages do not;
* `minimizeConjugateConstrainedOr_compares`, `minimizeNewtonConstrainedOr_compares`: nor do the
  constrained minimizers;
* `divisors_nonzero`: no part of the library ever divides by zero.
-/

namespace Descent

/-! ## Definitions -/

section

variable {α σ : Type} [Numeral α] (refusal : Fault)

namespace CentralPath

/-- `CentralPath.arrive`, with the multipliers and the scale under the gap checked. -/
def arriveOr (stage : Stage α σ) (barrier : Barrier α σ)
    (preconditioner : Option (Preconditioner α σ)) (done : Nat) (x : Array α) (t : α) :
    Run α σ (Arrival α) := do
  let smoother ← stagePreconditioner preconditioner t
  let x ← stage x t smoother
  let multipliers ← barrier.multipliersOr refusal t (Vec.ofArray x)
  let gap ← Run.ofExcept (Scalar.quotientOr refusal (Scalar.ofNat multipliers.size) t)
  Run.debug .centralPath fun _ => stageLine (done + 1) t gap
  return ⟨x, multipliers, t, gap⟩

/-- `CentralPath.followFrom`, with `arriveOr` as its stage. -/
def followFromOr (stage : Stage α σ) (barrier : Barrier α σ) (schedule : Schedule α)
    (preconditioner : Option (Preconditioner α σ)) (start : Datum α) :
    Run α σ (Certificate α) := do
  let x ← Run.ofExcept (start.toVector "w0")
  let t ← Run.ofExcept schedule.initialScale.toScalar
  followWith (arriveOr refusal stage barrier preconditioner) schedule
    (schedule.maxStages.roundsUntil - 1) [] x t

/-- `CentralPath.stageValue`, with the scale checked. -/
def stageValueOr (value : Option (ScalarField α σ)) (barrier : Barrier α σ) (t : α) :
    ScalarField α σ := fun w => do
  match value with
  | none => throw .notApplicable
  | some f =>
    let a ← f w
    let b ← barrier.value (Vec.ofArray w)
    let term ← Run.ofExcept (Scalar.quotientOr refusal b t)
    return a + term

/-- `CentralPath.stageGradient`, with the scale checked, and `Barrier.gradientOr` in it. -/
def stageGradientOr (gradient : VectorField α σ) (barrier : Barrier α σ) (t : α) :
    VectorField α σ := fun w => do
  let a ← gradient.valueAt "gradient" (Vec.ofArray w)
  let b ← barrier.gradientOr refusal (Vec.ofArray w)
  let term ← Run.ofExcept (Vec.divideByOr refusal b t)
  return .vector (a + term).toArray

/-- `CentralPath.stageHessian`, with the scale checked, and `Barrier.hessianOr` in it. -/
def stageHessianOr (hessian : Tensor α σ) (barrier : Barrier α σ) (t : α) : Tensor α σ :=
  .varying fun w => do
    let a ← hessian.operatorAt (Vec.ofArray w)
    let b ← barrier.hessianOr refusal (Vec.ofArray w)
    let factor ← Run.ofExcept (Scalar.quotientOr refusal 1 t)
    return .operator (← Run.ofExcept (a.add (b.scaled factor)))

/-- `CentralPath.conjugateStage`, with the minimizer and the functions of the stage checked. -/
def conjugateStageOr (value : Option (ScalarField α σ)) (gradient : VectorField α σ)
    (barrier : Barrier α σ) (options : Conjugate.Options α σ) : Stage α σ := fun x t smoother =>
  minimizeConjugateOr refusal (some (stageValueOr refusal value barrier t))
    (stageGradientOr refusal gradient barrier t) (.vector x) options (outside barrier) smoother

/-- `CentralPath.newtonStage`, with the minimizer and the functions of the stage checked. -/
def newtonStageOr (gradient : VectorField α σ) (hessian : Tensor α σ) (barrier : Barrier α σ)
    (options : Newton.Options α σ) : Stage α σ := fun x t smoother =>
  minimizeNewtonOr refusal (stageGradientOr refusal gradient barrier t)
    (stageHessianOr refusal hessian barrier t) (.vector x) (outside barrier) options smoother

end CentralPath

open CentralPath

/-- `minimizeConjugateConstrained`, with `conjugateStageOr` as its stages. -/
def minimizeConjugateConstrainedOr (value : Option (ScalarField α σ)) (gradient : VectorField α σ)
    (start : Datum α) (barrier : Barrier α σ) (path : CentralPath.Options α)
    (options : Conjugate.Options α σ) (preconditioner : Option (Preconditioner α σ)) :
    Run α σ (Certificate α) := do
  let schedule ← Run.ofExcept path.schedule
  followFromOr refusal (conjugateStageOr refusal value gradient barrier options) barrier schedule
    preconditioner start

/-- `minimizeNewtonConstrained`, with `newtonStageOr` as its stages. -/
def minimizeNewtonConstrainedOr (gradient : VectorField α σ) (hessian : Tensor α σ)
    (start : Datum α) (barrier : Barrier α σ) (path : CentralPath.Options α)
    (options : Newton.Options α σ) (preconditioner : Option (Preconditioner α σ)) :
    Run α σ (Certificate α) := do
  let schedule ← Run.ofExcept path.schedule
  if !barrier.hasHessian then throw .hessianNeeded
  followFromOr refusal (newtonStageOr refusal gradient hessian barrier options) barrier schedule
    preconditioner start

end

section

variable {σ : Type} [RealText] {refusal : Fault} {I : Invariant ℝ σ} {S : Array ℝ → Prop}

/-! ## Stages -/

theorem Operator.Fixed.scaled {op : Operator ℝ σ} (h : op.Fixed I) (t : ℝ) :
    (op.scaled t).Fixed I := by
  intro n
  obtain ⟨m, hm⟩ := h (n := n)
  refine ⟨fun v => t * m v, fun v => ?_⟩
  unfold Operator.apply
  refine .bind (Operator.fits_keeps _ n) fun _ _ => .bind (hm v) fun image himage => .pure ?_
  rw [himage]

namespace CentralPath

section

variable {value : Option (ScalarField ℝ σ)} {gradient : VectorField ℝ σ} {hessian : Tensor ℝ σ}
  {barrier : Barrier ℝ σ} {t : ℝ}

theorem stageValueOr_compare (hvalue : ∀ f ∈ value, Run.KeptOn I S f)
    (hbarrier : barrier.Divides refusal I S) (ht : 0 < t) :
    Run.CompareOn (.exact I) S (stageValue value barrier t)
      (stageValueOr refusal value barrier t) := by
  intro x hx
  cases value with
  | none => exact .throw
  | some f =>
    refine .bind ((hvalue f rfl).compareOn x hx) ?_
    rintro a _ rfl
    refine .bind (hbarrier.value (Vec.ofArray x) hx) ?_
    rintro b _ rfl
    exact .quotient ht.ne' (.pure rfl)

theorem stageGradientOr_compare (hgradient : Run.KeptOn I S gradient)
    (hbarrier : barrier.Divides refusal I S) (ht : 0 < t) :
    Run.CompareOn (.exact I) S (stageGradient gradient barrier t)
      (stageGradientOr refusal gradient barrier t) := by
  intro x hx
  refine .bind (hgradient.compareOn.field _ (Vec.ofArray x) hx) ?_
  rintro a _ rfl
  refine .bind (hbarrier.gradient (Vec.ofArray x) hx) ?_
  rintro b _ rfl
  rw [Vec.divideByOr_real ht.ne']
  exact .pure rfl

theorem stageHessianOr_compare (hhessian : hessian.KeptOn I S)
    (hbarrier : barrier.Divides refusal I S) (ht : 0 < t) :
    Tensor.Compare (.exact I) S (stageHessian hessian barrier t)
      (stageHessianOr refusal hessian barrier t) := by
  refine Tensor.varying_compare (L := Operator.Alike.likeness _) fun x hx => ?_
  refine .bind (hhessian.compareBy (Vec.ofArray x) hx) fun a a' ha => ?_
  refine .bind (hbarrier.hessian (Vec.ofArray x) hx) fun b b' hb => ?_
  refine .quotient ht.ne' (.bind (ha.add (hb.scaled _)) fun op op' hop => .pure (.pure hop))

end

/-- Two ways to minimize the stages at positive scales that lead to one point from every point of
`S`, again one of `S`. -/
def Stage.CompareFixed (I : Invariant ℝ σ) (S : Array ℝ → Prop) (stage stage' : Stage ℝ σ) :
    Prop :=
  ∀ x t smoother smoother', 0 < t → S x → Option.Rel (Tensor.CompareFixed I S) smoother smoother' →
    (Comparison.exact I).Compares (fun y y' => y = y' ∧ S y) (stage x t smoother)
      (stage' x t smoother')

/-- Preconditioners whose tensors compare and always have the same images of vectors. -/
def Preconditioner.CompareFixed (I : Invariant ℝ σ) (S : Array ℝ → Prop)
    (p p' : Preconditioner ℝ σ) : Prop :=
  ∀ t, (Comparison.exact I).Compares (Tensor.CompareFixed I S) (p t) (p' t)

section

variable {barrier : Barrier ℝ σ} {value : Option (ScalarField ℝ σ)} {gradient : VectorField ℝ σ}
  {hessian : Tensor ℝ σ}

theorem conjugateStageOr_compareFixed {options : Conjugate.Options ℝ σ}
    (hvalue : ∀ f ∈ value, Run.KeptOn I S f) (hgradient : Run.KeptOn I S gradient)
    (hbarrier : barrier.Divides refusal I S) (hstop : options.stop.Compare (.exact I)) :
    Stage.CompareFixed I S (conjugateStage value gradient barrier options)
      (conjugateStageOr refusal value gradient barrier options) := by
  intro x t smoother smoother' ht hx hsmoother
  rw [conjugateStage, conjugateStageOr, minimizeConjugateOr_eq]
  refine minimizeConjugate_compares (fun w hw => ?_)
    (.some (stageValueOr_compare hvalue hbarrier ht))
    (stageGradientOr_compare hgradient hbarrier ht).field hbarrier.outside
    (Tensor.CompareFixed.rel_compareBy hsmoother) hstop
  cases hw
  exact hx

theorem newtonStageOr_compareFixed {options : Newton.Options ℝ σ}
    (hgradient : Run.KeptOn I S gradient) (hhessian : hessian.KeptOn I S)
    (hbarrier : barrier.Divides refusal I S) (hstop : options.stop.Compare (.exact I)) :
    Stage.CompareFixed I S (newtonStage gradient hessian barrier options)
      (newtonStageOr refusal gradient hessian barrier options) := by
  intro x t smoother smoother' ht hx hsmoother
  refine minimizeNewtonOr_compares (fun w hw => ?_)
    (stageGradientOr_compare hgradient hbarrier ht).field
    (stageHessianOr_compare hhessian hbarrier ht) hbarrier.outside hsmoother hstop
  cases hw
  exact hx

end

/-! ## Paths -/

section

variable {stage stage' : Stage ℝ σ} {barrier : Barrier ℝ σ}
  {preconditioner preconditioner' : Option (Preconditioner ℝ σ)} {schedule : Schedule ℝ}

theorem stagePreconditioner_compareFixed
    (h : Option.Rel (Preconditioner.CompareFixed I S) preconditioner preconditioner') (t : ℝ) :
    (Comparison.exact I).Compares (Option.Rel (Tensor.CompareFixed I S))
      (stagePreconditioner preconditioner t) (stagePreconditioner preconditioner' t) := by
  cases h with
  | none => exact .pure .none
  | some hp =>
    refine .bind (hp t) fun tensor tensor' htensor => .pure (.some ?_)
    refine Tensor.varying_compareFixed fun x hx => ?_
    refine .bind (htensor (Vec.ofArray x) hx) fun op op' ⟨halike, hfixed⟩ => .pure ?_
    exact ⟨op.scaled t, op'.scaled t, rfl, rfl, halike.scaled t, Operator.Fixed.scaled hfixed t⟩

theorem arriveOr_compares (hstage : Stage.CompareFixed I S stage stage')
    (hbarrier : barrier.Divides refusal I S)
    (hpreconditioner : Option.Rel (Preconditioner.CompareFixed I S) preconditioner preconditioner')
    (done : Nat) {x : Array ℝ} (hx : S x) {t : ℝ} (ht : 0 < t) :
    (Comparison.exact I).Compares (fun a a' => a = a' ∧ S a.point)
      (arrive stage barrier preconditioner done x t)
      (arriveOr refusal stage' barrier preconditioner' done x t) := by
  refine .bind (stagePreconditioner_compareFixed hpreconditioner t) fun _ _ hsmoother => ?_
  refine .bind (hstage x t _ _ ht hx hsmoother) ?_
  rintro y _ ⟨rfl, hy⟩
  refine .bind (hbarrier.multipliers ht (Vec.ofArray y) hy) ?_
  rintro multipliers _ rfl
  exact .quotient ht.ne' (.bind (.debug _ _) fun _ _ _ => .pure ⟨rfl, hy⟩)

/-- **A path does not divide by zero** if its stages at positive scales do not. -/
theorem followFromOr_compares (hstage : Stage.CompareFixed I S stage stage')
    (hbarrier : barrier.Divides refusal I S)
    (hpreconditioner : Option.Rel (Preconditioner.CompareFixed I S) preconditioner preconditioner')
    {path : Options ℝ} (hschedule : path.schedule = .ok schedule) {start : Datum ℝ}
    (hstart : ∀ w, start.toVector "w0" = .ok w → S w) :
    (Comparison.exact I).Compares (fun r r' => r = r' ∧ S r.optimum)
      (followFrom stage barrier schedule preconditioner start)
      (followFromOr refusal stage' barrier schedule preconditioner' start) := by
  refine .check fun w hw => .check fun t ht => ?_
  rw [follow_eq_followWith]
  exact followWith_compares (S := S) (W := (0 < ·))
    (fun done _ _ hx ht => arriveOr_compares hstage hbarrier hpreconditioner done hx ht)
    (fun _ _ hpos hfactor => Options.scale_pos hschedule hpos hfactor) _ _ _ _ (hstart w hw)
    (Options.initialScale_pos hschedule ht)

end

end CentralPath

open CentralPath

section

variable {value : Option (ScalarField ℝ σ)} {gradient : VectorField ℝ σ} {hessian : Tensor ℝ σ}
  {start : Datum ℝ} {barrier : Barrier ℝ σ} {path : CentralPath.Options ℝ}
  {preconditioner preconditioner' : Option (Preconditioner ℝ σ)}

/-- **Constrained minimization by conjugate gradients does not divide by zero.** -/
theorem minimizeConjugateConstrainedOr_compares {options : Conjugate.Options ℝ σ}
    (hstart : ∀ w, start.toVector "w0" = .ok w → S w) (hvalue : ∀ f ∈ value, Run.KeptOn I S f)
    (hgradient : Run.KeptOn I S gradient) (hbarrier : barrier.Divides refusal I S)
    (hpreconditioner : Option.Rel (Preconditioner.CompareFixed I S) preconditioner preconditioner')
    (hstop : options.stop.Compare (.exact I)) :
    (Comparison.exact I).Compares (fun r r' => r = r' ∧ S r.optimum)
      (minimizeConjugateConstrained value gradient start barrier path options preconditioner)
      (minimizeConjugateConstrainedOr refusal value gradient start barrier path options
        preconditioner') :=
  .check fun _ hschedule => followFromOr_compares
    (conjugateStageOr_compareFixed hvalue hgradient hbarrier hstop) hbarrier hpreconditioner
    hschedule hstart

/-- **Constrained minimization by truncated Newton steps does not divide by zero.** -/
theorem minimizeNewtonConstrainedOr_compares {options : Newton.Options ℝ σ}
    (hstart : ∀ w, start.toVector "w0" = .ok w → S w) (hgradient : Run.KeptOn I S gradient)
    (hhessian : hessian.KeptOn I S) (hbarrier : barrier.Divides refusal I S)
    (hpreconditioner : Option.Rel (Preconditioner.CompareFixed I S) preconditioner preconditioner')
    (hstop : options.stop.Compare (.exact I)) :
    (Comparison.exact I).Compares (fun r r' => r = r' ∧ S r.optimum)
      (minimizeNewtonConstrained gradient hessian start barrier path options preconditioner)
      (minimizeNewtonConstrainedOr refusal gradient hessian start barrier path options
        preconditioner') := by
  refine .check fun schedule hschedule => ?_
  have hfollow := followFromOr_compares
    (newtonStageOr_compareFixed hgradient hhessian hbarrier hstop) hbarrier hpreconditioner
    hschedule hstart
  exact .ite Iff.rfl (fun _ => .bind .throw fun _ _ (_ : True) => hfollow) fun _ => hfollow

end

/-! ## Everything -/

/-- The functions of a barrier keep an invariant. The constraints of a family always have the same
values, and none is violated or met with equality at the start. -/
inductive Barrier.Startable (I : Invariant ℝ σ) (start : Datum ℝ) : Barrier ℝ σ → Prop where
  | family {f : Family ℝ σ} {c : Nat → Array ℝ → ℝ} (h : f.KeptOn I (fun _ => True) c)
      (hstart : ∀ w, start.toVector "w0" = .ok w → f.Strict c w) : Startable I start (.family f)
  | closedForm {b : ClosedForm ℝ σ} (h : (Barrier.closedForm b).KeptOn I fun _ => True) :
      Startable I start (.closedForm b)

/-- A preconditioner of a constrained minimization, without checks and with them: one of the caller,
which always has the same images of vectors, or the Jacobi preconditioner of the family. -/
inductive CentralPath.Preconditioner.Checked (refusal : Fault) (I : Invariant ℝ σ) :
    Barrier ℝ σ → Preconditioner ℝ σ → Preconditioner ℝ σ → Prop where
  | caller {barrier : Barrier ℝ σ} {p : Preconditioner ℝ σ}
      (h : ∀ t, (p t).Keeps I (Tensor.FixedOn I fun _ => True)) : Checked refusal I barrier p p
  | jacobi {f : Family ℝ σ} {objective : VectorField ℝ σ}
      (hobjective : Run.KeptOn I (fun _ => True) objective)
      (hdiagonal : ∀ diagonal ∈ f.hessianDiagonal, ∀ i, Run.KeptOn I (fun _ => True) (diagonal i)) :
      Checked refusal I (.family f) (fun t => return f.jacobi objective t)
        (fun t => return f.jacobiOr refusal objective t)

/-- There is a set of points, the start among them, at which neither the barrier nor the
preconditioner divides by zero. -/
theorem Barrier.Startable.exists_divides {barrier : Barrier ℝ σ} {start : Datum ℝ}
    (h : barrier.Startable I start) (refusal : Fault) : ∃ S, barrier.Divides refusal I S ∧
      (∀ w, start.toVector "w0" = .ok w → S w) ∧
      ∀ p p', Preconditioner.Checked refusal I barrier p p' →
        Preconditioner.CompareFixed I S p p' := by
  have hcaller (S : Array ℝ → Prop) {p : Preconditioner ℝ σ}
      (hp : ∀ t, (p t).Keeps I (Tensor.FixedOn I fun _ => True)) :
      Preconditioner.CompareFixed I S p p := by
    refine fun t => (Comparison.exact_of_keeps (hp t)).mono ?_
    rintro tensor _ ⟨rfl, hfixed⟩
    exact Tensor.FixedOn.compareFixed fun x _ => hfixed x trivial
  cases h with
  | @family f c hkept hstart =>
    have hstrict : f.KeptOn I (f.Strict c) c :=
      ⟨hkept.value, fun i x _ => hkept.gradient i x trivial,
        fun hessian hmem i _ x _ => hkept.hessian hessian hmem i x trivial⟩
    refine ⟨f.Strict c, Family.divides hstrict, hstart, fun p p' hp => ?_⟩
    cases hp with
    | caller hp => exact hcaller _ hp
    | jacobi hobjective hdiagonal =>
      exact fun t => .pure (Family.jacobiOr_compareFixed hstrict
        (fun diagonal hmem i x _ => hdiagonal diagonal hmem i x trivial)
        (fun x _ => hobjective x trivial) (fun _ hx => hx) t)
  | closedForm hkept =>
    refine ⟨fun _ => True, ClosedForm.divides hkept, fun _ _ => trivial, fun p p' hp => ?_⟩
    cases hp with
    | caller hp => exact hcaller _ hp

/-- **No divisor is ever zero.** Over the reals, with every quotient checked and a divisor of zero
ending the run in whatever fault, everything runs as it does without the checks: linear systems,
searches, both minimizers and both constrained minimizers. Searches and minimization by conjugate
gradients do so whatever the functions of the callers do. Of the others it is asked that these keep
an invariant, that preconditioners and constraints always give the same answers, and that the
constraints of a family are strictly satisfied at the start. -/
theorem divisors_nonzero (refusal : Fault) {s : Session ℝ σ} (hs : s.Has I)
    {A : OperatorLike ℝ σ} {M : Option (OperatorLike ℝ σ)} {value : Option (ScalarField ℝ σ)}
    {gradient : VectorField ℝ σ} {hessian : Tensor ℝ σ} {outside : Region ℝ σ}
    {smoother : Option (Tensor ℝ σ)} {start : Datum ℝ} {barrier : Barrier ℝ σ}
    {preconditioner preconditioner' : Option (Preconditioner ℝ σ)}
    {conjugate : Conjugate.Options ℝ σ} {newton : Newton.Options ℝ σ}
    (hA : ∀ op, A.toOperator = .ok op → op.Kept I)
    (hM : ∀ B ∈ M, ∀ op, B.toOperator = .ok op → op.Fixed I)
    (hvalue : ∀ f ∈ value, Run.KeptOn I (fun _ => True) f)
    (hgradient : Run.KeptOn I (fun _ => True) gradient)
    (hhessian : hessian.KeptOn I fun _ => True)
    (houtside : Run.KeptOn I (fun _ => True) outside)
    (hsmoother : ∀ tensor ∈ smoother, tensor.FixedOn I fun _ => True)
    (hconjugate : conjugate.stop.Kept I fun _ _ => True)
    (hnewton : newton.stop.Kept I fun _ _ => True)
    (hbarrier : barrier.Startable I start)
    (hpreconditioner : Option.Rel (Preconditioner.Checked refusal I barrier) preconditioner
      preconditioner') :
    (∀ b guess options maxIterations,
      (solveLinearOr refusal A b guess options maxIterations M).run s =
        (solveLinear A b guess options maxIterations M).run s) ∧
    (∀ x d options gradientAtStart,
      Ray.searchArraysOr refusal gradient x d options outside gradientAtStart =
        Ray.searchArrays gradient x d options outside gradientAtStart) ∧
    (∀ w0, minimizeConjugateOr refusal value gradient w0 conjugate outside smoother =
      minimizeConjugate value gradient w0 conjugate outside smoother) ∧
    (∀ w0, (minimizeNewtonOr refusal gradient hessian w0 outside newton smoother).run s =
      (minimizeNewton gradient hessian w0 outside newton smoother).run s) ∧
    ∀ path,
      (minimizeConjugateConstrainedOr refusal value gradient start barrier path conjugate
        preconditioner').run s =
        (minimizeConjugateConstrained value gradient start barrier path conjugate
          preconditioner).run s ∧
      (minimizeNewtonConstrainedOr refusal gradient hessian start barrier path newton
        preconditioner').run s =
        (minimizeNewtonConstrained gradient hessian start barrier path newton
          preconditioner).run s := by
  have hregion : outside.KeptOn I fun _ => True :=
    fun _ y _ _ => (houtside y trivial).mono fun _ _ _ => trivial
  have hsmoothers : Option.Rel (Tensor.CompareFixed I fun _ => True) smoother smoother := by
    refine Option.rel_self fun tensor hmem _ x hx => ?_
    have hfixed : tensor.FixedOn I fun _ => True := hsmoother tensor hmem
    exact hfixed.compareFixed x hx
  refine ⟨fun b guess options maxIterations => ?_,
    fun x d options g => Ray.searchArraysOr_eq gradient x d options outside g,
    fun w0 => minimizeConjugateOr_eq value gradient w0 conjugate outside smoother,
    fun w0 => ?_, fun path => ?_⟩
  · exact (solveLinearOr_compares hA hM).run_eq (fun _ _ h => h) hs
  · exact (minimizeNewtonOr_compares (fun _ _ => trivial) hgradient.compareOn.field
      hhessian.compareBy hregion.compare hsmoothers hnewton.compare).run_eq (fun _ _ h => h.1) hs
  · obtain ⟨S, hdivides, hstart, hchecked⟩ := hbarrier.exists_divides refusal
    have hpreconditioners := Option.rel_mono hpreconditioner hchecked
    have hgradientS : Run.KeptOn I S gradient := fun x _ => hgradient x trivial
    exact ⟨(minimizeConjugateConstrainedOr_compares hstart
        (fun f hmem x _ => hvalue f hmem x trivial) hgradientS hdivides hpreconditioners
        hconjugate.compare).run_eq (fun _ _ h => h.1) hs,
      (minimizeNewtonConstrainedOr_compares hstart hgradientS (fun x _ => hhessian x trivial)
        hdivides hpreconditioners hnewton.compare).run_eq (fun _ _ h => h.1) hs⟩

end

/-- Half the square of a number: a linear system with its second derivative, a search down to its
minimum, and the minimizations by truncated Newton steps and, below one and with the Jacobi
preconditioner, by conjugate gradients. -/
theorem divisors_nonzero_halfLine :
    letI := RealText.mute
    let s : Session ℝ Unit := Session.initial ()
    let refusal : Fault := .divisionByZero
    let A : OperatorLike ℝ Unit := .operator .identity
    let curvature : VectorField ℝ Unit := fun _ => return .vector #[1]
    let newton : Newton.Options ℝ Unit := {}
    (solveLinearOr refusal A (.vector #[1]) .nothing {} .nothing (some A)).run s =
        (solveLinear A (.vector #[1]) .nothing {} .nothing (some A)).run s ∧
      Ray.searchArraysOr refusal identityField #[1] #[-1] {} Region.everywhere none =
        Ray.searchArrays identityField #[1] #[-1] {} Region.everywhere none ∧
      (minimizeNewtonOr refusal identityField (.constant A) (.vector #[-4]) Region.everywhere newton
          (some (.constant A))).run s =
        (minimizeNewton identityField (.constant A) (.vector #[-4]) Region.everywhere newton
          (some (.constant A))).run s ∧
      (minimizeConjugateConstrainedOr refusal none identityField (.vector #[0]) (.family halfLine)
          {} unitNorm (some fun t => return halfLine.jacobiOr refusal curvature t)).run s =
        (minimizeConjugateConstrained none identityField (.vector #[0]) (.family halfLine)
          {} unitNorm (some fun t => return halfLine.jacobi curvature t)).run s := by
  let _ := RealText.mute
  intro s refusal A curvature newton
  have hs : s.Has Invariant.none := trivial
  have hidentity : (Operator.identity : Operator ℝ Unit).Fixed Invariant.none :=
    ⟨id, fun v => .pure rfl⟩
  have hA : ∀ op, A.toOperator = .ok op → op.Kept Invariant.none := by
    rintro _ ⟨⟩
    exact Operator.Fixed.kept hidentity
  have hM : ∀ B ∈ some A, ∀ op, B.toOperator = .ok op → op.Fixed Invariant.none := by
    rintro _ ⟨⟩ _ ⟨⟩
    exact hidentity
  have hfield (f : VectorField ℝ Unit) : Run.KeptOn Invariant.none (fun _ => True) f :=
    fun x _ => Run.keeps_none (f x)
  have hvalue : ∀ f ∈ (none : Option (ScalarField ℝ Unit)),
      Run.KeptOn Invariant.none (fun _ => True) f := nofun
  have hhessian : (Tensor.constant A).KeptOn Invariant.none fun _ => True := fun x hx =>
    Tensor.keptOn_none (.constant A) (fun _ => True) x hx
  have houtside : Run.KeptOn Invariant.none (fun _ => True) (Region.everywhere : Region ℝ Unit) :=
    fun x _ => Run.keeps_none _
  have hsmoother : ∀ tensor ∈ some (Tensor.constant A),
      tensor.FixedOn Invariant.none fun _ => True := by
    rintro _ ⟨⟩ n x -
    exact .pure hidentity
  have hbarrier : (Barrier.family halfLine).Startable Invariant.none (.vector #[0]) := by
    refine .family (c := fun _ x => x.getD 0 0 - 1)
      ⟨fun _ _ => .pure rfl, fun _ => hfield _, nofun⟩ ?_
    rintro _ ⟨⟩ i -
    norm_num
  obtain ⟨hsolve, hsearch, -, hnewton, hpath⟩ := divisors_nonzero refusal hs hA hM hvalue
    (hfield identityField) hhessian houtside hsmoother unitNorm.stop.kept_none
    newton.stop.kept_none hbarrier (.some (.jacobi (hfield curvature) nofun))
  exact ⟨hsolve _ _ _ _, hsearch _ _ _ _, hnewton _, (hpath {}).1⟩

end Descent
