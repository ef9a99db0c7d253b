import Descent.CentralPath
import Descent.Proofs.Minimize.Callers

/-!
# Central paths stay inside

As for the minimizers, the functions of the callers and of the barrier are only known to keep an
invariant `I` at the points of a set `S`, which contains the start and every point that the barrier
finds inside its domain.

* `CentralPath.follow_keeps`: a path keeps the invariant if its stages do. Its certificate is about
  a point of `S` that the last stage returned, with the multipliers and the gap that belong to it.
* `minimizeConjugateConstrained_keeps`, `minimizeNewtonConstrained_keeps`: so do the constrained
  minimizers, whose stages ask the barrier whether a point is outside.
-/

namespace Descent

variable {α σ : Type} [Numeral α] {I : Invariant α σ} {S : Array α → Prop}

/-- A barrier whose parts keep an invariant on a set of points that contains every point found
inside. -/
structure Barrier.KeptOn (I : Invariant α σ) (S : Array α → Prop) (barrier : Barrier α σ) :
    Prop where
  value : ∀ {n : Nat} (x : Vec α n), S x.toArray → (barrier.value x).Keeps I fun _ => True
  gradient : ∀ {n : Nat} (x : Vec α n), S x.toArray → (barrier.gradient x).Keeps I fun _ => True
  hessian : ∀ {n : Nat} (x : Vec α n), S x.toArray → (barrier.hessian x).Keeps I (Operator.Kept I)
  multipliers : ∀ {n : Nat} (t : α) (x : Vec α n), S x.toArray →
    (barrier.multipliers t x).Keeps I fun _ => True
  outside : ∀ x (y : Array α), S x → y.size = x.size →
    (barrier.outside (Vec.ofArray y)).Keeps I fun out => out = false → S y

namespace CentralPath

/-- A preconditioner whose tensors keep an invariant on a set of points. -/
def KeptOn (I : Invariant α σ) (S : Array α → Prop) (preconditioner : Preconditioner α σ) : Prop :=
  ∀ t, (preconditioner t).Keeps I (Tensor.KeptOn I S)

/-- A stage that goes from points of a set to points of it. -/
def Stage.Inside (I : Invariant α σ) (S : Array α → Prop) (stage : Stage α σ) : Prop :=
  ∀ x t smoother, S x → (∀ tensor ∈ smoother, tensor.KeptOn I S) → (stage x t smoother).Keeps I S

/-- What a stage from a point of `S` promises of its end: the stage returned the point, and the
multipliers and the gap belong to it. -/
structure Arrival.At (I : Invariant α σ) (S : Array α → Prop) (stage : Stage α σ)
    (barrier : Barrier α σ) (a : Arrival α) : Prop where
  inside : S a.point
  stage : ∃ x smoother, S x ∧ ∃ s s' : Session α σ, s.Has I ∧
    (stage x a.scale smoother).run s = .ok a.point s'
  multipliers : ∃ s s' : Session α σ, s.Has I ∧
    (barrier.multipliers a.scale (Vec.ofArray a.point)).run s = .ok a.multipliers s'
  gap : a.gap = Scalar.ofNat a.multipliers.size / a.scale

/-- What a path promises of its certificate: it is that of a stage at a scale with `W`. -/
def Certificate.At (I : Invariant α σ) (S : Array α → Prop) (stage : Stage α σ)
    (barrier : Barrier α σ) (W : α → Prop) (c : Certificate α) : Prop :=
  ∃ a : Arrival α, a.At I S stage barrier ∧ W a.scale ∧ ∃ status gaps, c = a.certificate status gaps

theorem stagePreconditioner_keeps {preconditioner : Option (Preconditioner α σ)}
    (h : ∀ p ∈ preconditioner, KeptOn I S p) (t : α) :
    (stagePreconditioner preconditioner t).Keeps I fun smoother =>
      ∀ tensor ∈ smoother, tensor.KeptOn I S := by
  cases preconditioner with
  | none => exact .pure nofun
  | some atScale =>
    refine .bind (h atScale rfl t) fun tensor htensor => .pure fun scaled hscaled => ?_
    cases hscaled
    refine Tensor.varying_keptOn fun x hx => ?_
    refine .bind (htensor (Vec.ofArray x) hx) fun op hop => .pure fun op' hop' => ?_
    cases hop'
    exact hop.scaled t

theorem arrive_keeps {stage : Stage α σ} {barrier : Barrier α σ}
    {preconditioner : Option (Preconditioner α σ)} (hstage : stage.Inside I S)
    (hmultipliers : ∀ t x, S x → (barrier.multipliers t (Vec.ofArray x)).Keeps I fun _ => True)
    (hpreconditioner : ∀ p ∈ preconditioner, KeptOn I S p) (done : Nat) {x : Array α} (hx : S x)
    (t : α) :
    (arrive stage barrier preconditioner done x t).Keeps I fun a =>
      a.scale = t ∧ a.At I S stage barrier := by
  refine .bind (stagePreconditioner_keeps hpreconditioner t) fun smoother hsmoother => ?_
  refine .bind (hstage x t smoother hx hsmoother).returned fun y hy => ?_
  refine .bind (hmultipliers t y hy.1).returned fun multipliers hm => ?_
  exact .bind .debug fun _ _ => .pure ⟨rfl, hy.1, ⟨x, smoother, hx, hy.2⟩, hm.2, rfl⟩

/-- **A path keeps the invariant**, and its certificate is that of its last stage. -/
theorem follow_keeps {stage : Stage α σ} {barrier : Barrier α σ} {schedule : Schedule α}
    {preconditioner : Option (Preconditioner α σ)} {W : α → Prop} (hstage : stage.Inside I S)
    (hmultipliers : ∀ t x, S x → (barrier.multipliers t (Vec.ofArray x)).Keeps I fun _ => True)
    (hpreconditioner : ∀ p ∈ preconditioner, KeptOn I S p)
    (hscale : ∀ t factor, W t → schedule.scaleFactor.toScalar = .ok factor → W (t * factor)) :
    ∀ left gaps x t, S x → W t →
      (follow stage barrier schedule preconditioner left gaps x t).Keeps I
        (Certificate.At I S stage barrier W) := by
  intro left
  induction left with
  | zero =>
    intro gaps x t hx ht
    refine .bind (arrive_keeps hstage hmultipliers hpreconditioner _ hx t) fun a ha => ?_
    have hat : ∀ status gaps, Certificate.At I S stage barrier W (a.certificate status gaps) :=
      fun status gaps => ⟨a, ha.2, ha.1 ▸ ht, status, gaps, rfl⟩
    refine .ite (fun _ => .pure (hat _ _)) fun _ => ?_
    exact .bind .debug fun _ _ => .pure (hat _ _)
  | succ left ih =>
    intro gaps x t hx ht
    refine .bind (arrive_keeps hstage hmultipliers hpreconditioner _ hx t) fun a ha => ?_
    refine .ite (fun _ => .pure ⟨a, ha.2, ha.1 ▸ ht, _, _, rfl⟩) fun _ => ?_
    exact .check fun factor hfactor => ih _ _ _ ha.2.inside (hscale t factor ht hfactor)

theorem followFrom_keeps {stage : Stage α σ} {barrier : Barrier α σ} {schedule : Schedule α}
    {preconditioner : Option (Preconditioner α σ)} {W : α → Prop} {start : Datum α}
    (hstart : ∀ w, start.toVector "w0" = .ok w → S w) (hstage : stage.Inside I S)
    (hmultipliers : ∀ t x, S x → (barrier.multipliers t (Vec.ofArray x)).Keeps I fun _ => True)
    (hpreconditioner : ∀ p ∈ preconditioner, KeptOn I S p)
    (hinitial : ∀ t, schedule.initialScale.toScalar = .ok t → W t)
    (hscale : ∀ t factor, W t → schedule.scaleFactor.toScalar = .ok factor → W (t * factor)) :
    (followFrom stage barrier schedule preconditioner start).Keeps I
      (Certificate.At I S stage barrier W) := by
  refine .check fun w hw => .check fun t ht => ?_
  exact follow_keeps hstage hmultipliers hpreconditioner hscale _ _ _ _ (hstart w hw)
    (hinitial t ht)

section

variable {value : Option (ScalarField α σ)} {gradient : VectorField α σ} {hessian : Tensor α σ}
  {barrier : Barrier α σ}

theorem stageValue_keeps (hvalue : ∀ f ∈ value, Run.KeptOn I S f) (hbarrier : barrier.KeptOn I S)
    (t : α) : Run.KeptOn I S (stageValue value barrier t) := by
  intro x hx
  cases value with
  | none => exact .throw
  | some f =>
    refine .bind (hvalue f rfl x hx) fun a _ => ?_
    exact .bind (hbarrier.value (Vec.ofArray x) hx) fun b _ => .pure trivial

theorem stageGradient_keeps (hgradient : Run.KeptOn I S gradient) (hbarrier : barrier.KeptOn I S)
    (t : α) : Run.KeptOn I S (stageGradient gradient barrier t) := by
  intro x hx
  refine .bind (VectorField.valueAt_keeps hgradient _ (Vec.ofArray x) hx) fun a _ => ?_
  exact .bind (hbarrier.gradient (Vec.ofArray x) hx) fun b _ => .pure trivial

theorem stageHessian_keeps (hhessian : hessian.KeptOn I S) (hbarrier : barrier.KeptOn I S) (t : α) :
    (stageHessian hessian barrier t).KeptOn I S := by
  refine Tensor.varying_keptOn fun x hx => ?_
  refine .bind (hhessian (Vec.ofArray x) hx) fun a ha => ?_
  refine .bind (hbarrier.hessian (Vec.ofArray x) hx) fun b hb => ?_
  refine .check fun op hop => .pure fun op' hop' => ?_
  cases hop'
  exact ha.add (hb.scaled _) hop

theorem conjugateStage_inside {options : Conjugate.Options α σ}
    (hvalue : ∀ f ∈ value, Run.KeptOn I S f) (hgradient : Run.KeptOn I S gradient)
    (hbarrier : barrier.KeptOn I S) (hstop : options.stop.Kept I fun _ _ => True) :
    (conjugateStage value gradient barrier options).Inside I S := by
  intro x t smoother hx hsmoother
  refine minimizeConjugate_keeps (fun w hw => ?_) (fun f hf => ?_)
    (stageGradient_keeps hgradient hbarrier t) hbarrier.outside hsmoother
    hstop
  · cases hw
    exact hx
  · cases hf
    exact stageValue_keeps hvalue hbarrier t

theorem newtonStage_inside {options : Newton.Options α σ} (hgradient : Run.KeptOn I S gradient)
    (hhessian : hessian.KeptOn I S) (hbarrier : barrier.KeptOn I S)
    (hstop : options.stop.Kept I fun _ _ => True) :
    (newtonStage gradient hessian barrier options).Inside I S := by
  intro x t smoother hx hsmoother
  refine minimizeNewton_keeps (fun w hw => ?_) (stageGradient_keeps hgradient hbarrier t)
    (stageHessian_keeps hhessian hbarrier t) hbarrier.outside hsmoother
    hstop
  cases hw
  exact hx

end

end CentralPath

open CentralPath

section

variable {value : Option (ScalarField α σ)} {gradient : VectorField α σ} {hessian : Tensor α σ}
  {start : Datum α} {barrier : Barrier α σ} {path : CentralPath.Options α}
  {preconditioner : Option (Preconditioner α σ)}

/-- **Constrained minimization by conjugate gradients keeps the invariant and stays in the set.** -/
theorem minimizeConjugateConstrained_keeps {options : Conjugate.Options α σ}
    (hstart : ∀ w, start.toVector "w0" = .ok w → S w) (hvalue : ∀ f ∈ value, Run.KeptOn I S f)
    (hgradient : Run.KeptOn I S gradient) (hbarrier : barrier.KeptOn I S)
    (hpreconditioner : ∀ p ∈ preconditioner, KeptOn I S p)
    (hstop : options.stop.Kept I fun _ _ => True) :
    (minimizeConjugateConstrained value gradient start barrier path options preconditioner).Keeps I
      fun c => S c.optimum := by
  refine .check fun schedule _ => ?_
  refine (followFrom_keeps (W := fun _ => True) hstart
    (conjugateStage_inside hvalue hgradient hbarrier hstop)
    (fun t x hx => hbarrier.multipliers t (Vec.ofArray x) hx) hpreconditioner (fun _ _ => trivial)
    fun _ _ _ _ => trivial).mono fun c ⟨a, ha, _, _, _, hc⟩ => hc ▸ ha.inside

/-- **Constrained minimization by truncated Newton steps keeps the invariant and stays in the set.**
-/
theorem minimizeNewtonConstrained_keeps {options : Newton.Options α σ}
    (hstart : ∀ w, start.toVector "w0" = .ok w → S w) (hgradient : Run.KeptOn I S gradient)
    (hhessian : hessian.KeptOn I S) (hbarrier : barrier.KeptOn I S)
    (hpreconditioner : ∀ p ∈ preconditioner, KeptOn I S p)
    (hstop : options.stop.Kept I fun _ _ => True) :
    (minimizeNewtonConstrained gradient hessian start barrier path options preconditioner).Keeps I
      fun c => S c.optimum := by
  refine .check fun schedule _ => ?_
  exact .refusing ((followFrom_keeps (W := fun _ => True) hstart
    (newtonStage_inside hgradient hhessian hbarrier hstop)
    (fun t x hx => hbarrier.multipliers t (Vec.ofArray x) hx) hpreconditioner (fun _ _ => trivial)
    fun _ _ _ _ => trivial).mono fun c ⟨a, ha, _, _, _, hc⟩ => hc ▸ ha.inside)

end

end Descent
