import Descent.Proofs.Exact.Euclidean
import Descent.Proofs.Minimize.Likeness
import Descent.Proofs.Ray.Bracket

/-!
# Quotients that are checked: searches and linear systems

`fOr refusal` is the function `f` with every quotient checked before it is formed: a divisor of zero
ends the run in the fault `refusal`, whichever that is. Over the reals no divisor is ever zero, so
the run is the same as that of `f`.

* `Comparison.exact I`: two runs from one session, in which an invariant holds, do the same
  (`Compares.run_eq`);
* `Scalar.quotientOr`, `Vec.divideByOr`, `Vec.quotientsOr`, `Vec.divideOr`: quotients that are
  checked;
* `LinearSystem.runOr_compares`, `solveLinearOr_compares`: a solve whose preconditioner always has
  the same image of a vector never divides by zero. The product that it starts with may be zero, but
  then the first iteration moves nowhere and ends the solve;
* `Ray.searchOr_eq`, `Ray.searchArraysOr_eq`: no search divides by zero. The slopes at the ends of a
  bracket have opposite signs, however often they are halved.
-/

namespace Descent

variable {α σ : Type} {n : Nat}

/-- Two runs from one session, in which an invariant holds, with no fault excused. -/
def Comparison.exact (I : Invariant α σ) : Comparison α σ :=
  Comparison.same I fun _ => False

namespace Comparison

variable {β γ : Type} {I : Invariant α σ}

/-- A run that keeps the invariant compares with itself. -/
theorem exact_of_keeps {run : Run α σ β} {Q : β → Prop} (h : run.Keeps I Q) :
    (exact I).Compares (fun b d => b = d ∧ Q b) run run :=
  same_of_keeps h

/-- The first of two runs that compare keeps the invariant. -/
theorem Compares.kept {R : β → γ → Prop} {first : Run α σ β} {second : Run α σ γ}
    (h : (exact I).Compares R first second) : first.Keeps I fun b => ∃ d, R b d := by
  intro s hs
  have h₁ := h s s ⟨rfl, hs⟩
  cases hf : first.run s with
  | ok b s' =>
    cases hg : second.run s with
    | ok d t' =>
      rw [hf, hg] at h₁
      exact ⟨h₁.1.2, d, h₁.2⟩
    | error g t' =>
      rw [hf, hg] at h₁
      exact h₁.elim
  | error f s' =>
    cases hg : second.run s with
    | ok d t' =>
      rw [hf, hg] at h₁
      exact h₁.elim
    | error g t' =>
      rw [hf, hg] at h₁
      obtain hX | ⟨-, hst⟩ := h₁
      · exact hX.elim
      · exact hst.2

/-- Runs that compare are the same from every session in which the invariant holds. -/
theorem Compares.run_eq {R : β → β → Prop} {first second : Run α σ β}
    (h : (exact I).Compares R first second) (hR : ∀ b d, R b d → b = d) {s : Session α σ}
    (hs : s.Has I) : second.run s = first.run s :=
  ((h.mono hR).eq_or_excused hs).resolve_left fun ⟨_, _, _, hX⟩ => hX

end Comparison

section

variable [Numeral α] {I : Invariant α σ} {S : Array α → Prop}

theorem Operator.Kept.alike {op : Operator α σ} (h : op.Kept I) : op.Alike (.exact I) op :=
  ⟨rfl, fun v => (Comparison.exact_of_keeps (h v)).mono fun _ _ hv => hv.1⟩

omit [Numeral α] in
theorem Run.KeptOn.compareOn {β : Type} {f : Array α → Run α σ β} (h : Run.KeptOn I S f) :
    Run.CompareOn (.exact I) S f f :=
  fun x hx => (Comparison.exact_of_keeps (h x hx)).mono fun _ _ hv => hv.1

omit [Numeral α] in
theorem Region.KeptOn.compare {outside : Region α σ} (h : outside.KeptOn I S) :
    Region.Compare (.exact I) S outside outside :=
  fun x y hx hsize => Comparison.exact_of_keeps (h x y hx hsize)

theorem Tensor.KeptOn.compareBy {tensor : Tensor α σ} (h : tensor.KeptOn I S) :
    Tensor.CompareBy (Operator.Alike.likeness (.exact I)) S tensor tensor :=
  fun x hx => (Comparison.exact_of_keeps (h x hx)).mono fun _ _ ⟨hop, hkept⟩ => hop ▸ hkept.alike

theorem CriterionLike.Kept.compare {T : Array α → Nat → Prop} {stop : CriterionLike α σ}
    (h : stop.Kept I T) : stop.Compare (.exact I) :=
  fun criterion hcriterion _ g k =>
    (Comparison.exact_of_keeps (h criterion hcriterion g k)).mono fun _ _ hv => hv.1

end

/-! ## Definitions -/

section

variable [Scalar α] (refusal : Fault)

/-- The quotient of two scalars; a divisor of zero is refused. -/
def Scalar.quotientOr (a b : α) : Except Fault α :=
  if b == 0 then .error refusal else .ok (a / b)

/-- Every entry divided by one scalar, which must not be zero. -/
def Vec.divideByOr (v : Vec α n) (c : α) : Except Fault (Vec α n) :=
  if c == 0 then .error refusal else .ok (Vec.divideBy v c)

/-- One scalar divided by every entry, none of which may be zero. -/
def Vec.quotientsOr (a : α) (v : Vec α n) : Except Fault (Vec α n) :=
  if v.any (· == 0) then .error refusal else .ok (v.map (a / ·))

/-- The entrywise quotient; no divisor may be zero. -/
def Vec.divideOr (u v : Vec α n) : Except Fault (Vec α n) :=
  if v.any (· == 0) then .error refusal else .ok (Vec.divide u v)

namespace LinearSystem

/-- `LinearSystem.step`, with the length of the step and the coefficient of the next direction
checked. -/
def stepOr (system : System α σ n) (tolerance : α) (s : State α n) : Run α σ (Step α n) := do
  let image ← system.apply s.direction
  let curvature := Vec.dot s.direction image
  if curvature ≤ 0 || !Scalar.isFinite curvature then return .refused
  let length ← Run.ofExcept (Scalar.quotientOr refusal s.product curvature)
  let point := Vec.along s.point length s.direction
  let residual := s.residual - length * image
  if Vec.norm residual < tolerance then return .last .tolerance point residual
  let smoothed ← system.smooth residual
  let product := Vec.dot residual smoothed
  if product ≤ 0 then return .last .preconditioner point residual
  let beta ← Run.ofExcept (Scalar.quotientOr refusal product s.product)
  return .next ⟨point, residual, Vec.along smoothed beta s.direction, product⟩

/-- `LinearSystem.solve`, with `stepOr` as its iteration. -/
def solveOr (system : System α σ n) (b guess : Vec α n) (tolerance : α) (budget : Nat) :
    Run α σ (Report α n) := do
  let image ← system.apply guess
  let residual := b - image
  if Vec.norm residual < tolerance || n = 0 then return ⟨guess, residual, 0, .atStart⟩
  let smoothed ← system.smooth residual
  iterateWith (stepOr refusal system tolerance) budget 0
    ⟨guess, residual, smoothed, Vec.dot residual smoothed⟩

/-- `LinearSystem.run`, with `solveOr` in it. -/
def runOr {α : Type} [Numeral α] (refusal : Fault) (system : System α σ n) (b guess : Vec α n)
    (tolerance : α) (budget : Nat) : Run α σ (Report α n) := do
  let report ← solveOr refusal system b guess tolerance budget
  if report.exit ≠ .atStart then Run.debug .linearSystem fun _ => report.line
  return report

end LinearSystem

namespace Ray

/-- `Bracket.secant`, with the difference of the slopes checked. -/
def Bracket.secantOr (b : Bracket α) : Except Fault α := do
  let fraction ← Scalar.quotientOr refusal (b.lowerSlope * (b.upper - b.lower))
    (b.upperSlope - b.lowerSlope)
  return b.lower - fraction

/-- `Bracket.trial`, with `secantOr` in it. -/
def Bracket.trialOr (b : Bracket α) : Except Fault (α × Nat) := do
  let length ← b.secantOr refusal
  if 2 ≤ b.repeats || !(b.lower < length && length < b.upper) then return (b.middle, 0)
  else return (length, b.repeats)

/-- `Ray.narrow`, with `trialOr` in it. -/
def narrowOr (ray : Ray α σ) (target : α) (b : Bracket α) (k : Nat) : Run α σ (Round α) := do
  let (length, repeats) ← Run.ofExcept (b.trialOr refusal)
  let b := { b with repeats }
  if ← ray.outside length then
    return .narrowed (b.cutAt length) k
  else
    let slope ← ray.slope length
    if !Scalar.isFinite slope then return .narrowed (b.cutAt length) (k + 1)
    else if Scalar.abs slope ≤ target then return .found length (k + 1)
    else if 0 < slope then return .narrowed (b.moveUpper length slope) (k + 1)
    else return .narrowed (b.moveLower length slope) (k + 1)

/-- `Ray.refine`, with `narrowOr` as its round. -/
def refineOr (ray : Ray α σ) (target : α) :
    (rounds : Nat) → Bracket α → (evaluations : Nat) → Run α σ (Found α)
  | 0, b, k => return ⟨b.lower, k⟩
  | rounds + 1, b, k => do
    if b.isNarrow then return ⟨b.lower, k⟩
    else
      match ← narrowOr refusal ray target b k with
      | .found length k => return ⟨length, k⟩
      | .narrowed b k => refineOr ray target rounds b k

/-- `Ray.descend`, with `refineOr` as its second phase. -/
def descendOr (ray : Ray α σ) (rule : Rule α) (slope : α) (k : Nat) : Run α σ (Found α) := do
  if !decide (slope < 0) then return ⟨0, k⟩
  else
    let target := rule.threshold * Scalar.abs slope
    match ← bracket ray rule.shrink target rule.rounds 0 slope rule.start k with
    | .found length k => return ⟨length, k⟩
    | .exhausted lower k => return ⟨lower, k⟩
    | .between b k => refineOr refusal ray target rule.rounds b k

/-- `Ray.search`, with `descendOr` in it. -/
def searchOr (ray : Ray α σ) (rule : Rule α) (known : Option α) : Run α σ (Found α) := do
  Run.ofExcept rule.check
  match known with
  | some slope => descendOr refusal ray rule slope 0
  | none => descendOr refusal ray rule (← ray.slope 0) 1

end Ray

end

/-- `Ray.searchArrays`, with `descendOr` in it. -/
def Ray.searchArraysOr [Numeral α] (refusal : Fault) (gradient : VectorField α σ) (x d : Array α)
    (options : Options α) (outside : Region α σ) (gradientAtStart : Option (Array α)) :
    Run α σ (Found α) := do
  let ray := stretched gradient outside x d
  Run.ofExcept (options.rule 0).check
  let (slope, k) ← match gradientAtStart with
    | some g => do pure (← Run.ofExcept (product g d), 0)
    | none => do pure (← ray.slope 0, 1)
  if !decide (slope < 0) then return ⟨0, k⟩
  else
    let rounds ← Run.ofExcept (options.rounds.toNumber >>= Number.toCount)
    descendOr refusal ray (options.rule rounds) slope k

/-- `solveLinear`, with `LinearSystem.runOr` in it. -/
def solveLinearOr [Numeral α] (refusal : Fault) (A : OperatorLike α σ) (b guess : Datum α)
    (options : LinearSystem.Options α) (maxIterations : Datum α)
    (preconditioner : Option (OperatorLike α σ)) : Run α σ (Array α) := do
  let task ← Run.ofExcept
    (LinearSystem.Task.read A b guess options maxIterations preconditioner)
  let report ← LinearSystem.runOr refusal task.system task.rhs task.guess task.tolerance task.budget
  return report.point.toArray

/-! ## Quotients -/

section

variable {refusal : Fault}

theorem Scalar.quotientOr_real {b : ℝ} (h : b ≠ 0) (a : ℝ) :
    Scalar.quotientOr refusal a b = .ok (a / b) :=
  if_neg (by simpa using h)

theorem Vec.divideByOr_real {c : ℝ} (h : c ≠ 0) (v : Vec ℝ n) :
    Vec.divideByOr refusal v c = .ok (Vec.divideBy v c) :=
  if_neg (by simpa using h)

/-- Divisors that are all other than zero pass the check. -/
theorem Vec.not_any_eq_zero {v : Vec ℝ n} (h : ∀ d ∈ v, d ≠ 0) : ¬(v.any (· == 0)) = true := by
  simp only [Vector.any_eq_true, beq_iff_eq, not_exists]
  intro i hi
  exact h v[i] (Vector.getElem_mem hi)

theorem Vec.quotientsOr_real {v : Vec ℝ n} (h : ∀ d ∈ v, d ≠ 0) (a : ℝ) :
    Vec.quotientsOr refusal a v = .ok (v.map (a / ·)) :=
  if_neg (Vec.not_any_eq_zero h)

theorem Vec.divideOr_real {v : Vec ℝ n} (h : ∀ d ∈ v, d ≠ 0) (u : Vec ℝ n) :
    Vec.divideOr refusal u v = .ok (Vec.divide u v) :=
  if_neg (Vec.not_any_eq_zero h)

namespace Comparison.Compares

variable {β γ : Type} {c : Comparison ℝ σ} {R : β → γ → Prop} {a b : ℝ}

/-- A quotient that is formed, and the same quotient checked. -/
theorem quotient {first : Run ℝ σ β} {next : ℝ → Run ℝ σ γ} (hb : b ≠ 0)
    (h : c.Compares R first (next (a / b))) :
    c.Compares R first (Run.ofExcept (Scalar.quotientOr refusal a b) >>= next) := by
  rw [Scalar.quotientOr_real hb]
  exact h

/-- A quotient that is checked in both runs. -/
theorem quotients {next : ℝ → Run ℝ σ β} {next' : ℝ → Run ℝ σ γ} (hb : b ≠ 0)
    (h : c.Compares R (next (a / b)) (next' (a / b))) :
    c.Compares R (Run.ofExcept (Scalar.quotient a b) >>= next)
      (Run.ofExcept (Scalar.quotientOr refusal a b) >>= next') := by
  rw [Scalar.quotient_real hb, Scalar.quotientOr_real hb]
  exact h

end Comparison.Compares

/-! ## Linear systems -/

/-- A map that always has the same image of a vector. -/
def LinearMap.Fixed (I : Invariant ℝ σ) (map : LinearMap ℝ σ n) : Prop :=
  ∃ m : Vec ℝ n → Vec ℝ n, ∀ v, (map v).Keeps I (· = m v)

/-- An operator that always has the same image of a vector. -/
def Operator.Fixed [RealText] (I : Invariant ℝ σ) (op : Operator ℝ σ) : Prop :=
  ∀ {n : Nat}, LinearMap.Fixed I (op.apply (n := n))

namespace LinearSystem

variable {I : Invariant ℝ σ} {system system' : System ℝ σ n} {m : Vec ℝ n → Vec ℝ n}

/-- The preconditioned residual is always the same function of the residual. -/
def System.Smooths (I : Invariant ℝ σ) (system : System ℝ σ n) (m : Vec ℝ n → Vec ℝ n) : Prop :=
  ∀ r, (system.smooth r).Keeps I (· = m r)

theorem System.smooths (system : System ℝ σ n)
    (h : ∀ map ∈ system.precondition, LinearMap.Fixed I map) : ∃ m, system.Smooths I m := by
  obtain ⟨apply, precondition⟩ := system
  cases precondition with
  | none => exact ⟨id, fun r => .pure rfl⟩
  | some map => exact h map rfl

/-- The product is that of the residual and the preconditioned residual. -/
def State.Matches (m : Vec ℝ n → Vec ℝ n) (s : State ℝ n) : Prop :=
  s.product = Vec.dot s.residual (m s.residual)

theorem smooth_exact (h : system.Compare (.exact I) system') (hm : system.Smooths I m)
    (r : Vec ℝ n) :
    (Comparison.exact I).Compares (fun z z' => z = z' ∧ z = m r) (system.smooth r)
      (system'.smooth r) :=
  (smooth_compares h r).keeps (fun hst => hst.2) (hm r)

/-- **An iteration does not divide by zero.** Where the product is zero nothing moves, and the
product after the iteration is zero again. -/
theorem stepOr_compares (h : system.Compare (.exact I) system') (hm : system.Smooths I m)
    (tolerance : ℝ) {s : State ℝ n} (hs : s.Matches m) :
    (Comparison.exact I).Compares (fun r r' => r = r' ∧ ∀ t, r = .next t → t.Matches m)
      (step system tolerance s) (stepOr refusal system' tolerance s) := by
  refine .bind (h.apply s.direction) ?_
  rintro image _ rfl
  refine .ite Iff.rfl (fun _ => .pure ⟨rfl, nofun⟩) fun hcurvature => ?_
  have hpos : 0 < Vec.dot s.direction image := by
    simp only [Bool.or_eq_true, decide_eq_true_eq, not_or, not_le] at hcurvature
    exact hcurvature.1
  refine .quotient hpos.ne' ?_
  refine .ite Iff.rfl (fun _ => .pure ⟨rfl, nofun⟩) fun _ => ?_
  refine .bind (smooth_exact h hm _) ?_
  rintro smoothed _ ⟨rfl, hsmoothed⟩
  refine .ite Iff.rfl (fun _ => .pure ⟨rfl, nofun⟩) fun hproduct => ?_
  have hne : s.product ≠ 0 := by
    intro hzero
    refine hproduct (le_of_eq ?_)
    rw [hsmoothed, hzero, zero_div]
    have hresidual : s.residual - (0 : ℝ) * image = s.residual := by
      ext i hi
      simp
    rw [hresidual, ← hs, hzero]
  refine .quotients hne (.pure ⟨rfl, ?_⟩)
  rintro t ⟨⟩
  exact congrArg (Vec.dot _) hsmoothed

theorem solveOr_compares (h : system.Compare (.exact I) system') (hm : system.Smooths I m)
    (b guess : Vec ℝ n) (tolerance : ℝ) (budget : Nat) :
    (Comparison.exact I).Compares Eq (solve system b guess tolerance budget)
      (solveOr refusal system' b guess tolerance budget) := by
  refine .bind (h.apply guess) ?_
  rintro image _ rfl
  refine .ite Iff.rfl (fun _ => .pure rfl) fun _ => .bind (smooth_exact h hm _) ?_
  rintro smoothed _ ⟨rfl, hsmoothed⟩
  rw [iterate_eq_iterateWith]
  exact iterateWith_compares (fun s hs => stepOr_compares h hm tolerance hs) budget 0 _
    (congrArg (Vec.dot _) hsmoothed)

theorem runOr_compares [RealText] (h : system.Compare (.exact I) system')
    (hm : system.Smooths I m) (b guess : Vec ℝ n) (tolerance : ℝ) (budget : Nat) :
    (Comparison.exact I).Compares Eq (run system b guess tolerance budget)
      (runOr refusal system' b guess tolerance budget) := by
  refine .bind (solveOr_compares h hm b guess tolerance budget) ?_
  rintro report _ rfl
  exact .ite Iff.rfl (fun _ => .bind (.debug _ _) fun _ _ _ => .pure rfl) fun _ => .pure rfl

end LinearSystem

open LinearSystem in
/-- **A linear system is solved without division by zero.** -/
theorem solveLinearOr_compares [RealText] {I : Invariant ℝ σ} {A : OperatorLike ℝ σ}
    {b guess : Datum ℝ} {options : LinearSystem.Options ℝ} {maxIterations : Datum ℝ}
    {preconditioner : Option (OperatorLike ℝ σ)} (hA : ∀ op, A.toOperator = .ok op → op.Kept I)
    (hfixed : ∀ M ∈ preconditioner, ∀ op, M.toOperator = .ok op → op.Fixed I) :
    (Comparison.exact I).Compares Eq (solveLinear A b guess options maxIterations preconditioner)
      (solveLinearOr refusal A b guess options maxIterations preconditioner) := by
  unfold solveLinear solveLinearOr Task.read
  simp only [Run.ofExcept_bind, Run.ofExcept_pure, bind_assoc, pure_bind]
  refine .check fun tolerance _ => .check fun op hop => .check fun smoother hsmoother => ?_
  refine .check fun rhs _ => .check fun start _ => .check fun budget _ => ?_
  have hops : ∀ op ∈ smoother, op.Fixed I := by
    cases preconditioner with
    | none =>
      cases hsmoother
      nofun
    | some M =>
      rw [Option.mapM_some] at hsmoother
      cases hM : M.toOperator with
      | error fault =>
        rw [hM] at hsmoother
        cases hsmoother
      | ok op =>
        rw [hM] at hsmoother
        cases hsmoother
        rintro _ ⟨⟩
        exact hfixed M rfl op hM
  have hmaps : ∀ map ∈ smoother.map fun op => op.apply (n := rhs.size), LinearMap.Fixed I map := by
    intro map hmap
    obtain ⟨op, hop, rfl⟩ := Option.mem_map.1 hmap
    exact hops op hop
  obtain ⟨m, hm⟩ := System.smooths ⟨op.apply, _⟩ hmaps
  have hself : Option.Rel (LinearMap.Compare (.exact I)) (smoother.map fun op => op.apply)
      (smoother.map fun op => op.apply (n := rhs.size)) :=
    Option.rel_self fun map hmap v => by
      obtain ⟨m, hm⟩ := hmaps map hmap
      exact (Comparison.exact_of_keeps (hm v)).mono fun _ _ hv => hv.1
  have hkept : op.Kept I := hA op hop
  refine .bind (runOr_compares ⟨hkept.alike.apply, hself⟩ hm _ _ _ _) ?_
  rintro report _ rfl
  exact .pure rfl

/-! ## Searches -/

namespace Ray

theorem Bracket.Signed.trialOr_eq {b : Bracket ℝ} (hb : b.Signed) :
    b.trialOr refusal = b.trial := by
  have hne : b.upperSlope - b.lowerSlope ≠ 0 := (sub_pos.2 (hb.1.trans hb.2)).ne'
  have hsecant : b.secantOr refusal = b.secant := by
    simp only [secantOr, secant, Scalar.quotientOr_real hne, Scalar.quotient_real hne]
  rw [trialOr, trial, hsecant]

variable {target : ℝ}

/-- **A round does not divide by zero.** -/
theorem narrowOr_eq (ray : Ray ℝ σ) (target : ℝ) {b : Bracket ℝ} (hb : b.Signed) (k : Nat) :
    narrowOr refusal ray target b k = narrow ray target b k := by
  rw [narrowOr, narrow, hb.trialOr_eq]

theorem refineOr_eq (ray : Ray ℝ σ) (htarget : 0 ≤ target) : ∀ rounds (b : Bracket ℝ) k,
    b.Signed → refineOr refusal ray target rounds b k = refine ray target rounds b k := by
  intro rounds
  induction rounds with
  | zero => exact fun b k _ => rfl
  | succ rounds ih =>
    intro b k hb
    rw [refineOr, refine, narrowOr_eq ray target hb]
    split
    · rfl
    · refine (narrow_signed ray htarget hb k).bind_congr fun r hr => ?_
      cases r with
      | found length k => rfl
      | narrowed b k => exact ih b k hr

theorem descendOr_eq (ray : Ray ℝ σ) {rule : Rule ℝ} (hrule : rule.check = .ok ()) (slope : ℝ)
    (k : Nat) : descendOr refusal ray rule slope k = descend ray rule slope k := by
  rw [descendOr, descend]
  split
  · rfl
  · have hneg : slope < 0 := by simpa using ‹¬(!decide (slope < 0)) = true›
    have htarget : 0 ≤ rule.threshold * Scalar.abs slope :=
      Rule.target_nonneg (Rule.valid_of_check hrule) slope
    refine (bracket_signed ray rule.shrink htarget _ _ _ _ _ hneg).bind_congr fun r hr => ?_
    cases r with
    | found length k => rfl
    | exhausted lower k => rfl
    | between b k => exact refineOr_eq ray htarget rule.rounds b k hr

/-- **No search divides by zero.** -/
theorem searchOr_eq (ray : Ray ℝ σ) (rule : Rule ℝ) (known : Option ℝ) :
    searchOr refusal ray rule known = search ray rule known := by
  refine Run.check_congr fun _ hrule => ?_
  cases known with
  | some slope => exact descendOr_eq ray hrule slope 0
  | none => exact bind_congr fun slope => descendOr_eq ray hrule slope 1

theorem searchArraysOr_eq [RealText] (gradient : VectorField ℝ σ) (x d : Array ℝ)
    (options : Options ℝ) (outside : Region ℝ σ) (gradientAtStart : Option (Array ℝ)) :
    searchArraysOr refusal gradient x d options outside gradientAtStart =
      searchArrays gradient x d options outside gradientAtStart := by
  refine Run.check_congr fun _ hrule => ?_
  have hchecked (rounds : Nat) : (options.rule rounds).check = .ok () := hrule
  have hnext (slope : ℝ) (k : Nat) :
      (if !decide (slope < 0) then pure ⟨0, k⟩
        else do
          let rounds ← Run.ofExcept (options.rounds.toNumber >>= Number.toCount)
          descendOr refusal (stretched gradient outside x d) (options.rule rounds) slope k) =
        (if !decide (slope < 0) then pure ⟨0, k⟩
        else do
          let rounds ← Run.ofExcept (options.rounds.toNumber >>= Number.toCount)
          descend (stretched gradient outside x d) (options.rule rounds) slope k) := by
    simp only [descendOr_eq _ (hchecked _)]
  cases gradientAtStart with
  | some g => exact bind_congr fun slope => hnext slope 0
  | none => exact bind_congr fun slope => hnext slope 1

end Ray

end

end Descent
