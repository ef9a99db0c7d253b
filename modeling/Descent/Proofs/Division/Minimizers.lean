import Descent.Proofs.Division.Solvers

/-!
# Quotients that are checked: minimizers

Both minimizers with every quotient checked, as in `Descent.Proofs.Division.Solvers`. Over the reals
they do the same as without the checks.

* `Conjugate.startLengthOr_eq`, `Conjugate.advanceOr_eq`: a direction that is searched along
  descends, a norm is only divided by if it is above one, and a product only if it is positive;
* `minimizeConjugateOr_eq`: minimization by conjugate gradients does not divide by zero, whatever
  the functions of the callers do;
* `minimizeNewtonOr_compares`: nor do truncated Newton steps, if the preconditioner, which enters a
  linear system, always has the same image of a vector: `Tensor.FixedOn`, `Tensor.CompareFixed`.
-/

namespace Descent

/-! ## Definitions -/

section

variable {α σ : Type} {n : Nat} [Numeral α] (refusal : Fault)

namespace Conjugate

/-- The first trial of `Conjugate.startLength` without a usable previous step, with the norm of the
direction checked. -/
def unitLengthOr (d : Vec α n) : Except Fault α :=
  if Vec.norm d ≤ 1 then .ok 1 else Scalar.quotientOr refusal 1 (Vec.norm d)

/-- `Conjugate.startLength`, with `unitLengthOr` in it and the slope checked. -/
def startLengthOr (previous : Option (Previous α)) (slope : α) (d : Vec α n) : Except Fault α := do
  let fallback ← unitLengthOr refusal d
  match previous with
  | none => return fallback
  | some p =>
    if p.length ≤ 0 then return fallback
    else
      let length ← Scalar.quotientOr refusal (p.length * p.slope) slope
      return if !Scalar.isFinite length || length ≤ 0 then fallback else length

/-- `Conjugate.beta`, with the last product checked. -/
def betaOr (s : State α n) (gradient smoothed : Vec α n) : Except Fault α := do
  if 0 < s.product then
    let ratio ← Scalar.quotientOr refusal (Vec.dot gradient (smoothed - s.smoothed)) s.product
    return Scalar.atLeast 0 ratio
  else return 0

/-- `Conjugate.advance`, with `betaOr` in it. -/
def advanceOr (rule : Rule α) (s : State α n) (previous : Previous α)
    (point gradient smoothed : Vec α n) : Except Fault (State α n) := do
  let beta ← betaOr refusal s gradient smoothed
  let count := s.sinceRestart + 1
  let restart := beta == 0 || decide (rule.restartInterval ≤ count)
  return {
    point, gradient, smoothed
    product := Vec.dot gradient smoothed
    direction := if restart then -smoothed else Vec.along (-smoothed) beta s.direction
    sinceRestart := if restart then 0 else count
    previous := some previous
    iterations := s.iterations + 1
    evaluations := s.evaluations + 1 }

/-- `Conjugate.leg`, with `startLengthOr`, `Ray.searchOr` and `advanceOr` in it. -/
def legOr (problem : Problem α σ n) (rule : Rule α) (s : State α n) : Run α σ (Leg α n) := do
  match aim s with
  | none => return .ended .noDescent s
  | some (s, slope) =>
    let ray := Ray.through problem.gradient problem.outside s.point s.direction
    let start ← Run.ofExcept (startLengthOr refusal s.previous slope s.direction)
    let manner ← Run.ofExcept (rule.searching start)
    let found ← Ray.searchOr refusal ray manner (some (Vec.dot s.gradient s.direction))
    let s := { s with evaluations := s.evaluations + found.evaluations }
    let point := Vec.along s.point found.length s.direction
    if found.length == 0 || point == s.point then
      if s.sinceRestart = 0 then return .ended .noProgress s
      else return .retry { s.steepest with previous := none }
    else
      let gradient ← problem.gradient point
      let smoothed ← problem.precondition point gradient
      let next ← Run.ofExcept
        (advanceOr refusal rule s ⟨found.length, slope⟩ point gradient smoothed)
      return .accepted next

/-- `Conjugate.iterate`, with `legOr` as its step. -/
def iterateOr (problem : Problem α σ n) (rule : Rule α) :
    (budget : Nat) → State α n → Run α σ (Report α n)
  | 0, s => do
    if ← problem.stop s.gradient s.iterations then return s.report .criterion
    else return s.report .budget
  | budget + 1, s => do
    if ← problem.stop s.gradient s.iterations then return s.report .criterion
    else
      match ← legOr refusal problem rule s with
      | .accepted s => iterateOr problem rule budget s
      | .ended exit s => return s.report exit
      | .retry s =>
        if ← problem.stop s.gradient s.iterations then return s.report .criterion
        else
          match ← legOr refusal problem rule s with
          | .accepted s => iterateOr problem rule budget s
          | .ended exit s => return s.report exit
          | .retry s => return s.report .noProgress

/-- `Conjugate.solve`, with `iterateOr` in it. -/
def solveOr (problem : Problem α σ n) (rule : Rule α) (budget : Nat) (start : Vec α n) :
    Run α σ (Report α n) := do
  let gradient ← problem.gradient start
  let smoothed ← problem.precondition start gradient
  iterateOr refusal problem rule budget
    { point := start, gradient, smoothed
      product := Vec.dot gradient smoothed
      direction := -smoothed
      sinceRestart := 0
      previous := none
      iterations := 0
      evaluations := 1 }

end Conjugate

open Conjugate in
/-- `minimizeConjugate`, with `Conjugate.solveOr` in it. -/
def minimizeConjugateOr (value : Option (ScalarField α σ)) (gradient : VectorField α σ)
    (start : Datum α) (options : Options α σ) (outside : Region α σ)
    (preconditioner : Option (Tensor α σ)) : Run α σ (Array α) := do
  let task ← Run.ofExcept (Task.read gradient start options outside preconditioner)
  let report ← solveOr refusal task.problem task.rule task.budget task.start
  if ← Run.debugEnabled .conjugate then
    let value ← match value with
      | some f => f report.point.toArray
      | none => pure Numeral.missing
    Run.debug .conjugate fun _ => report.line value
  return report.point.toArray

namespace Newton

/-- `Newton.direction`, with `LinearSystem.runOr` as its inner solve. -/
def directionOr (problem : Problem α σ n) (rule : Rule α) (smoother : Option (LinearMap α σ n))
    (s : State α n) : Run α σ (Direction α n) := do
  let hessian ← problem.hessian s.point
  let inner ← LinearSystem.runOr refusal ⟨hessian, smoother⟩ (-s.gradient) (Vec.zeros n)
    (innerTolerance rule s.gradient) rule.innerBudget
  if Vec.dot s.gradient inner.point < 0 then return ⟨inner.point, true⟩
  else return ⟨← steepest smoother s.gradient, false⟩

/-- `Newton.attempt`, with `Ray.searchOr` in it. -/
def attemptOr (problem : Problem α σ n) (rule : Rule α) (s : State α n) (step : Vec α n) :
    Run α σ (Trial α n) := do
  let ray := Ray.through problem.gradient problem.outside s.point step
  let manner : Ray.Rule α := ⟨rule.threshold, 1, rule.damping, rounds⟩
  let found ← Ray.searchOr refusal ray manner (some (Vec.dot s.gradient step))
  let point := Vec.along s.point found.length step
  return ⟨point, !(found.length == 0 || point == s.point), found.evaluations⟩

/-- `Newton.leg`, with `directionOr` and `attemptOr` in it. -/
def legOr (problem : Problem α σ n) (rule : Rule α) (s : State α n) : Run α σ (Leg α n) := do
  let smoother ← problem.precondition s.point
  let direction ← directionOr refusal problem rule smoother s
  let first ← attemptOr refusal problem rule s direction.step
  if first.moved then arrive problem s first.point first.evaluations
  else if direction.isNewton then
    Run.debug .newton fun _ => "Newton step stalled, falling back to steepest descent"
    let second ← attemptOr refusal problem rule s (← steepest smoother s.gradient)
    let evaluations := first.evaluations + second.evaluations
    if second.moved then arrive problem s second.point evaluations
    else return .ended { s with evaluations := s.evaluations + evaluations }
  else return .ended { s with evaluations := s.evaluations + first.evaluations }

/-- `Newton.solve`, with `legOr` as its step. -/
def solveOr (problem : Problem α σ n) (rule : Rule α) (budget : Nat) (start : Vec α n) :
    Run α σ (Report α n) := do
  let gradient ← problem.gradient start
  iterateWith problem.stop (legOr refusal problem rule) budget ⟨start, gradient, 0, 1⟩

end Newton

open Newton in
/-- `minimizeNewton`, with `Newton.solveOr` in it. -/
def minimizeNewtonOr (gradient : VectorField α σ) (hessian : Tensor α σ) (start : Datum α)
    (outside : Region α σ) (options : Options α σ) (preconditioner : Option (Tensor α σ)) :
    Run α σ (Array α) := do
  let task ← Run.ofExcept (Task.read gradient hessian start outside options preconditioner)
  let report ← solveOr refusal task.problem task.rule task.budget task.start
  Run.debug .newton fun _ => report.line
  return report.point.toArray

end

variable {σ : Type} {n : Nat} [RealText] {refusal : Fault} {I : Invariant ℝ σ}

/-! ## Conjugate gradients -/

namespace Conjugate

/-- **The first trial of a search does not divide by zero** along a direction that descends. -/
theorem startLengthOr_eq {slope : ℝ} (hslope : slope < 0) (previous : Option (Previous ℝ))
    (d : Vec ℝ n) :
    startLengthOr refusal previous slope d = .ok (startLength previous slope d) := by
  have hfallback : unitLengthOr refusal d = .ok (if Vec.norm d ≤ 1 then 1 else 1 / Vec.norm d) := by
    unfold unitLengthOr
    split
    · rfl
    · have hnorm : (0 : ℝ) < Vec.norm d := zero_lt_one.trans (not_le.1 ‹_›)
      exact Scalar.quotientOr_real hnorm.ne' 1
  simp only [startLengthOr, startLength, hfallback, Scalar.quotientOr_real hslope.ne, bind,
    Except.bind]
  cases previous with
  | none => rfl
  | some p =>
    dsimp only
    split <;> rfl

theorem betaOr_eq (s : State ℝ n) (gradient smoothed : Vec ℝ n) :
    betaOr refusal s gradient smoothed = .ok (beta s gradient smoothed) := by
  unfold betaOr beta
  split
  · have hpos : 0 < s.product := ‹_›
    simp only [Scalar.quotientOr_real hpos.ne', bind, Except.bind]
    rfl
  · rfl

/-- **The next direction does not divide by zero.** -/
theorem advanceOr_eq (rule : Rule ℝ) (s : State ℝ n) (previous : Previous ℝ)
    (point gradient smoothed : Vec ℝ n) :
    advanceOr refusal rule s previous point gradient smoothed =
      .ok (advance rule s previous point gradient smoothed) := by
  simp only [advanceOr, advance, betaOr_eq, bind, Except.bind]
  rfl

theorem aim_slope_neg {s t : State ℝ n} {slope : ℝ} (h : aim s = some (t, slope)) : slope < 0 := by
  unfold aim at h
  dsimp only at h
  split at h
  · cases h
    assumption
  · split at h
    · cases h
      assumption
    · cases h

theorem legOr_eq (problem : Problem ℝ σ n) (rule : Rule ℝ) (s : State ℝ n) :
    legOr refusal problem rule s = leg problem rule s := by
  unfold legOr leg
  cases haim : aim s with
  | none => rfl
  | some r =>
    obtain ⟨t, slope⟩ := r
    simp only [startLengthOr_eq (aim_slope_neg haim), advanceOr_eq, Ray.searchOr_eq]
    rfl

theorem iterateOr_eq (problem : Problem ℝ σ n) (rule : Rule ℝ) : ∀ budget s,
    iterateOr refusal problem rule budget s = iterate problem rule budget s := by
  intro budget
  induction budget with
  | zero => exact fun s => rfl
  | succ budget ih =>
    intro s
    simp only [iterateOr, legOr_eq, ih]
    rfl

end Conjugate

open Conjugate in
/-- **Minimization by conjugate gradients does not divide by zero.** -/
theorem minimizeConjugateOr_eq (value : Option (ScalarField ℝ σ)) (gradient : VectorField ℝ σ)
    (start : Datum ℝ) (options : Conjugate.Options ℝ σ) (outside : Region ℝ σ)
    (preconditioner : Option (Tensor ℝ σ)) :
    minimizeConjugateOr refusal value gradient start options outside preconditioner =
      minimizeConjugate value gradient start options outside preconditioner := by
  simp only [minimizeConjugateOr, Conjugate.solveOr, iterateOr_eq]
  rfl

/-! ## Truncated Newton steps -/

section

variable {S : Array ℝ → Prop} {tensor tensor' : Tensor ℝ σ} {op : Operator ℝ σ}

/-- A tensor whose operators, at the points of a set, always have the same images of vectors. -/
def Tensor.FixedOn (I : Invariant ℝ σ) (S : Array ℝ → Prop) (tensor : Tensor ℝ σ) : Prop :=
  ∀ {n : Nat} (x : Vec ℝ n), S x.toArray → (tensor.operatorAt x).Keeps I (Operator.Fixed I)

/-- Tensors whose operators, at the points of a set, are alike and always have the same images of
vectors. -/
def Tensor.CompareFixed (I : Invariant ℝ σ) (S : Array ℝ → Prop) (tensor tensor' : Tensor ℝ σ) :
    Prop :=
  ∀ {n : Nat} (x : Vec ℝ n), S x.toArray →
    (Comparison.exact I).Compares (fun op op' => op.Alike (.exact I) op' ∧ op.Fixed I)
      (tensor.operatorAt x) (tensor'.operatorAt x)

theorem Operator.Fixed.kept (h : op.Fixed I) : op.Kept I := by
  intro n v
  obtain ⟨m, hm⟩ := h (n := n)
  exact (hm v).mono fun _ _ => trivial

theorem Tensor.FixedOn.compareFixed (h : tensor.FixedOn I S) :
    Tensor.CompareFixed I S tensor tensor := by
  refine fun x hx => (Comparison.exact_of_keeps (h x hx)).mono ?_
  rintro op _ ⟨rfl, hfixed⟩
  have hkept : op.Kept I := Operator.Fixed.kept hfixed
  exact ⟨hkept.alike, hfixed⟩

theorem Tensor.CompareFixed.compareBy (h : Tensor.CompareFixed I S tensor tensor') :
    Tensor.CompareBy (Operator.Alike.likeness (.exact I)) S tensor tensor' :=
  fun x hx => (h x hx).mono fun _ _ hop => hop.1

theorem Tensor.CompareFixed.rel_compareBy {o o' : Option (Tensor ℝ σ)}
    (h : Option.Rel (Tensor.CompareFixed I S) o o') :
    Option.Rel (Tensor.CompareBy (Operator.Alike.likeness (.exact I)) S) o o' :=
  Option.rel_mono h fun _ _ htensor => htensor.compareBy

theorem Tensor.CompareFixed.fixedOn (h : Tensor.CompareFixed I S tensor tensor') :
    tensor.FixedOn I S :=
  fun x hx => (h x hx).kept.mono fun _ ⟨_, _, hfixed⟩ => hfixed

end

namespace Newton

variable {problem problem' : Problem ℝ σ n} {S : Vec ℝ n → Prop}

theorem directionOr_compares (h : problem.Compare (.exact I) S problem') (rule : Rule ℝ)
    {smoother smoother' : Option (LinearMap ℝ σ n)}
    (hsmoother : Option.Rel (LinearMap.Compare (.exact I)) smoother smoother')
    (hfixed : ∀ map ∈ smoother, LinearMap.Fixed I map) {s : State ℝ n} (hs : S s.point) :
    (Comparison.exact I).Compares Eq (direction problem rule smoother s)
      (directionOr refusal problem' rule smoother' s) := by
  refine .bind (h.hessian s.point hs) fun hessian hessian' hhessian => ?_
  obtain ⟨m, hm⟩ := LinearSystem.System.smooths ⟨hessian, smoother⟩ hfixed
  refine .bind (LinearSystem.runOr_compares ⟨hhessian, hsmoother⟩ hm _ _ _ _) ?_
  rintro inner _ rfl
  refine .ite Iff.rfl (fun _ => .pure rfl) fun _ => .bind (steepest_compares hsmoother _) ?_
  rintro step _ rfl
  exact .pure rfl

theorem attemptOr_eq (problem : Problem ℝ σ n) (rule : Rule ℝ) (s : State ℝ n) (step : Vec ℝ n) :
    attemptOr refusal problem rule s step = attempt problem rule s step := by
  simp only [attemptOr, attempt, Ray.searchOr_eq]

theorem legOr_compares (h : problem.Compare (.exact I) S problem')
    (hfixed : ∀ x, S x → (problem.precondition x).Keeps I fun smoother =>
      ∀ map ∈ smoother, LinearMap.Fixed I map)
    (rule : Rule ℝ) {s : State ℝ n} (hs : S s.point) :
    (Comparison.exact I).Compares (fun r r' => r = r' ∧ S r.state.point) (leg problem rule s)
      (legOr refusal problem' rule s) := by
  have hprecondition := (h.precondition s.point hs).keeps (fun hst => hst.2) (hfixed s.point hs)
  simp only [leg, legOr, attemptOr_eq]
  refine .bind hprecondition ?_
  rintro smoother smoother' ⟨hsmoother, hmaps⟩
  refine .bind (directionOr_compares h rule hsmoother hmaps hs) ?_
  rintro direction _ rfl
  have hrest : (Comparison.exact I).Compares (fun r r' => r = r' ∧ S r.state.point)
      (seek problem rule smoother s direction >>= conclude problem s)
      (seek problem' rule smoother' s direction >>= conclude problem' s) := by
    refine .bind (seek_compares h rule hsmoother s direction) ?_
    rintro tries _ ⟨rfl, htries⟩
    exact conclude_compares h hs htries
  rwa [seek_bind_conclude, seek_bind_conclude] at hrest

theorem solveOr_compares (h : problem.Compare (.exact I) S problem')
    (hfixed : ∀ x, S x → (problem.precondition x).Keeps I fun smoother =>
      ∀ map ∈ smoother, LinearMap.Fixed I map)
    (rule : Rule ℝ) (budget : Nat) {start : Vec ℝ n} (hs : S start) :
    (Comparison.exact I).Compares (fun r r' => r = r' ∧ S r.point)
      (solve problem rule budget start) (solveOr refusal problem' rule budget start) := by
  refine .bind (h.gradient start hs) ?_
  rintro g _ rfl
  rw [iterate_eq_iterateWith]
  exact iterateWith_compares h.stop (fun s hs => legOr_compares h hfixed rule hs) budget _ hs

theorem smootherAt_fixed {preconditioner preconditioner' : Option (Tensor ℝ σ)}
    {S : Array ℝ → Prop}
    (h : Option.Rel (Tensor.CompareFixed I S) preconditioner preconditioner') (x : Vec ℝ n)
    (hx : S x.toArray) :
    (smootherAt preconditioner x).Keeps I fun smoother =>
      ∀ map ∈ smoother, LinearMap.Fixed I map := by
  cases h with
  | none => exact .pure nofun
  | some htensor =>
    refine .bind (htensor.fixedOn x hx) fun op hop => .pure ?_
    rintro _ ⟨⟩
    exact hop

end Newton

open Newton in
/-- **Minimization by truncated Newton steps does not divide by zero.** -/
theorem minimizeNewtonOr_compares {S : Array ℝ → Prop}
    {gradient gradient' : VectorField ℝ σ} {hessian hessian' : Tensor ℝ σ} {start : Datum ℝ}
    {outside outside' : Region ℝ σ} {options : Newton.Options ℝ σ}
    {preconditioner preconditioner' : Option (Tensor ℝ σ)}
    (hstart : ∀ w, start.toVector "w0" = .ok w → S w)
    (hgradient : VectorField.Compare (.exact I) S gradient gradient')
    (hhessian : Tensor.Compare (.exact I) S hessian hessian')
    (houtside : Region.Compare (.exact I) S outside outside')
    (hpreconditioner : Option.Rel (Tensor.CompareFixed I S) preconditioner preconditioner')
    (hstop : options.stop.Compare (.exact I)) :
    (Comparison.exact I).Compares (fun x x' => x = x' ∧ S x)
      (minimizeNewton gradient hessian start outside options preconditioner)
      (minimizeNewtonOr refusal gradient' hessian' start outside' options preconditioner') := by
  unfold minimizeNewton minimizeNewtonOr Task.read
  simp only [Minimize.Task.ofExcept_setUp, bind_assoc, pure_bind]
  refine .check fun settings hsettings => .check fun w hw => ?_
  have hS : S (Vec.ofArray w).toArray := hstart w hw
  have halike := Tensor.CompareFixed.rel_compareBy hpreconditioner
  refine .bind (solveOr_compares (S := fun x => S x.toArray)
    (Problem.posed_compare hS hgradient hhessian houtside halike hstop
      (Options.settings_eq_ok hsettings).stop)
    (fun x hx => smootherAt_fixed hpreconditioner x hx) _ _ hS) ?_
  rintro report _ ⟨rfl, hreport⟩
  exact .bind (.debug _ _) fun _ _ _ => .pure ⟨rfl, hreport⟩

end Descent
