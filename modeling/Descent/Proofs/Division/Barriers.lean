import Descent.Proofs.Barrier.Family
import Descent.Proofs.Division.Minimizers

/-!
# Quotients that are checked: barriers

The barriers of families and their Jacobi preconditioners with every quotient checked, as in
`Descent.Proofs.Division.Solvers`. Over the reals they are the same as without the checks wherever
no constraint is violated or met with equality, as the slacks are positive there.

* `Barrier.Divides`: a barrier that does not divide by zero at the points of a set;
* `Family.divides`, `ClosedForm.divides`: every barrier is one, at the points that it finds inside;
* `Family.jacobiOr_compareFixed`: nor does the Jacobi preconditioner of a family divide by zero, and
  it always has the same image of a vector.
-/

namespace Descent

/-! ## Definitions -/

section

variable {α σ : Type} [Numeral α] (refusal : Fault) {n : Nat}

namespace Family

/-- `Family.barrierGradient`, with all slacks checked. -/
def barrierGradientOr (f : Family α σ) (x : Vec α n) : Run α σ (Vec α n) := do
  let slack ← f.slack x
  let jacobian ← f.gradients x
  let weights ← Run.ofExcept (Vec.quotientsOr refusal 1 slack)
  return Mat.applyTransposed jacobian weights

/-- `Family.addCurvature`, with the slack of each constraint checked. -/
def addCurvatureOr (v : Vec α n) : Vec α n → List (α × Operator α σ) → Run α σ (Vec α n)
  | sum, [] => return sum
  | sum, (s, op) :: rest => do
    let image ← op.apply v
    let term ← Run.ofExcept (Vec.divideByOr refusal image s)
    addCurvatureOr v (sum + term) rest

/-- `Family.applyHessian`, with the squares of the slacks checked, and `addCurvatureOr` in it. -/
def applyHessianOr {m : Nat} (slack : Vec α m) (jacobian : Mat α m n)
    (curvatures : List (Operator α σ)) (v : Vec α n) : Run α σ (Vec α n) := do
  let weights ← Run.ofExcept
    (Vec.divideOr refusal (Mat.apply jacobian v) (Vec.times slack slack))
  addCurvatureOr refusal v (Mat.applyTransposed jacobian weights) (slack.toList.zip curvatures)

/-- `Family.barrierHessian`, with `applyHessianOr` as the map of the operator. -/
def barrierHessianOr (f : Family α σ) (x : Vec α n) : Run α σ (Operator α σ) := do
  let slack ← f.slack x
  let jacobian ← f.gradients x
  let curvatures ← f.curvatures x
  let map : VectorField α σ := fun v =>
    if h : v.size = n then do
      let image ← applyHessianOr refusal slack jacobian curvatures ⟨v, h⟩
      return .vector image.toArray
    else throw .unequal
  return .function map (some n)

/-- `Family.multipliers`, with the scaled values of the constraints checked. -/
def multipliersOr (f : Family α σ) (t : α) (x : Vec α n) : Run α σ (Array α) := do
  let values ← f.values x
  let multipliers ← Run.ofExcept (Vec.quotientsOr refusal (-1) (values.map (t * ·)))
  return multipliers.toArray

end Family

namespace Barrier

/-- `Barrier.gradient`, with the barrier of a family checked. -/
def gradientOr (barrier : Barrier α σ) (x : Vec α n) : Run α σ (Vec α n) :=
  match barrier with
  | family f => f.barrierGradientOr refusal x
  | closedForm c => (closedForm c).gradient x

/-- `Barrier.hessian`, with the barrier of a family checked. -/
def hessianOr (barrier : Barrier α σ) (x : Vec α n) : Run α σ (Operator α σ) :=
  match barrier with
  | family f => f.barrierHessianOr refusal x
  | closedForm c => (closedForm c).hessian x

/-- `Barrier.multipliers`, with the barrier of a family checked. -/
def multipliersOr (barrier : Barrier α σ) (t : α) (x : Vec α n) : Run α σ (Array α) :=
  match barrier with
  | family f => f.multipliersOr refusal t x
  | closedForm c => (closedForm c).multipliers t x

end Barrier

namespace Jacobi

/-- `Jacobi.addConstraints`, with the value of each constraint and its square checked. -/
def addConstraintsOr (parts : Parts α σ) (x : Vec α n) :
    (left i : Nat) → Vec α n → Run α σ (Vec α n)
  | 0, _, sum => return sum
  | left + 1, i, sum => do
    let c ← parts.value i x.toArray
    let g ← (parts.gradient i).valueAt "constraint gradient" x
    let term ← Run.ofExcept (Vec.divideByOr refusal (Vec.times g g) (c * c))
    let sum := sum + term
    match parts.hessianDiagonal with
    | none => addConstraintsOr parts x left (i + 1) sum
    | some diagonal => do
      let d ← (diagonal i).valueAt "constraint Hessian diagonal" x
      let term ← Run.ofExcept (Vec.divideByOr refusal d c)
      addConstraintsOr parts x left (i + 1) (sum - term)

/-- `Jacobi.inverseEntry`, with the entry checked. -/
def inverseEntryOr (d : α) : Except Fault α :=
  if Scalar.isFinite d && decide (0 < d) then Scalar.quotientOr refusal 1 d else .ok 1

/-- `Jacobi.inverse`, with `inverseEntryOr` for every entry. -/
def inverseOr (diagonal : Array α) : Except Fault (Operator α σ) := do
  return .diagonal (← diagonal.mapM (inverseEntryOr refusal))

/-- `Jacobi.operatorAt`, with `addConstraintsOr` and `inverseOr` in it. -/
def operatorAtOr (parts : Parts α σ) (count : Number α) (objective : VectorField α σ) (t : α)
    (x : Vec α n) : Run α σ (Operator α σ) := do
  let d ← objective.valueAt "Hessian diagonal" x
  let b ← addConstraintsOr refusal parts x (← Run.ofExcept count.toCount) 0 (Vec.zeros n)
  Run.ofExcept (inverseOr refusal (t * d + b).toArray)

/-- `Jacobi.tensor`, with `operatorAtOr` at every point. -/
def tensorOr (parts : Parts α σ) (count : Number α) (objective : VectorField α σ) (t : α) :
    Tensor α σ :=
  .varying fun x => do
    let op ← operatorAtOr refusal parts count objective t (Vec.ofArray x)
    return .operator op

end Jacobi

/-- `Family.jacobi`, with `Jacobi.tensorOr` in it. -/
def Family.jacobiOr (f : Family α σ) (objective : VectorField α σ) (t : α) : Tensor α σ :=
  Jacobi.tensorOr refusal (Jacobi.Parts.ofFamily f) (.whole f.count) objective t

end

variable {σ : Type} [RealText] {refusal : Fault} {I : Invariant ℝ σ} {S : Array ℝ → Prop} {n : Nat}

/-! ## The barriers of families -/

namespace Family

variable {f : Family ℝ σ} {c : Nat → Array ℝ → ℝ} {x : Vec ℝ n}

/-- Where no constraint is violated or met with equality all slacks are positive. -/
theorem slack_exact (h : f.KeptOn I S c) (hx : f.Strict c x.toArray) :
    (Comparison.exact I).Compares (fun v w : Vec ℝ f.count => v = w ∧ ∀ d ∈ v, 0 < d)
      (f.slack x) (f.slack x) := by
  refine (Comparison.exact_of_keeps (slack_keeps h x)).mono ?_
  rintro v _ ⟨rfl, hv⟩
  refine ⟨rfl, fun d hd => ?_⟩
  obtain ⟨i, hi, rfl⟩ := Vector.getElem_of_mem hd
  have hslack : v[i] = -c i x.toArray := hv ⟨i, hi⟩
  rw [hslack]
  exact neg_pos.2 (not_le.1 (hx i hi))

theorem gradients_exact (h : f.KeptOn I S c) (hS : S x.toArray) :
    (Comparison.exact I).Compares Eq (f.gradients x) (f.gradients x) :=
  (Comparison.exact_of_keeps (gradients_keeps h hS)).mono fun _ _ hv => hv.1

theorem barrierGradientOr_compares (h : f.KeptOn I S c) (hS : S x.toArray)
    (hx : f.Strict c x.toArray) :
    (Comparison.exact I).Compares Eq (f.barrierGradient x) (f.barrierGradientOr refusal x) := by
  refine .bind (slack_exact h hx) ?_
  rintro slack _ ⟨rfl, hslack⟩
  refine .bind (gradients_exact h hS) ?_
  rintro jacobian _ rfl
  rw [Vec.quotientsOr_real fun d hd => (hslack d hd).ne']
  exact .pure rfl

theorem addCurvatureOr_compares (v : Vec ℝ n) : ∀ (terms : List (ℝ × Operator ℝ σ)) (sum : Vec ℝ n),
    (∀ term ∈ terms, term.1 ≠ 0 ∧ term.2.Kept I) →
      (Comparison.exact I).Compares Eq (addCurvature v sum terms)
        (addCurvatureOr refusal v sum terms) := by
  intro terms
  induction terms with
  | nil => exact fun sum _ => .pure rfl
  | cons term terms ih =>
    intro sum hterms
    obtain ⟨s, op⟩ := term
    obtain ⟨⟨hs, hop⟩, hterms⟩ := List.forall_mem_cons.1 hterms
    refine .bind (hop.alike.apply v) ?_
    rintro image _ rfl
    rw [Vec.divideByOr_real hs]
    exact ih _ hterms

theorem barrierHessianOr_compares (h : f.KeptOn I S c) (hS : S x.toArray)
    (hx : f.Strict c x.toArray) :
    (Comparison.exact I).Compares (Operator.Alike (.exact I)) (f.barrierHessian x)
      (f.barrierHessianOr refusal x) := by
  refine .bind (slack_exact h hx) ?_
  rintro slack _ ⟨rfl, hslack⟩
  refine .bind (gradients_exact h hS) ?_
  rintro jacobian _ rfl
  refine .bind (Comparison.exact_of_keeps (curvatures_keeps h hS)) ?_
  rintro curvatures _ ⟨rfl, hcurvatures⟩
  refine .pure (Operator.Alike.function (some n) fun v => ?_)
  have hsquare : ∀ d ∈ Vec.times slack slack, d ≠ 0 := by
    intro d hd
    obtain ⟨i, hi, rfl⟩ := Vector.getElem_of_mem hd
    have hpos : 0 < slack[i] := hslack _ (Vector.getElem_mem hi)
    have htimes : (Vec.times slack slack)[i] = slack[i] * slack[i] := Vec.getElem_times _ _ ⟨i, hi⟩
    rw [htimes]
    exact (mul_pos hpos hpos).ne'
  have hterms : ∀ term ∈ slack.toList.zip curvatures, term.1 ≠ 0 ∧ term.2.Kept I := by
    intro term hterm
    obtain ⟨hs, hop⟩ := List.of_mem_zip hterm
    exact ⟨(hslack _ (Vector.mem_toList_iff.1 hs)).ne', hcurvatures _ hop⟩
  split
  · simp only [applyHessianOr, Vec.divideOr_real hsquare, Run.ofExcept, pure_bind]
    refine .bind (addCurvatureOr_compares _ _ _ hterms) ?_
    rintro image _ rfl
    exact .pure rfl
  · exact .throw

theorem multipliersOr_compares (h : f.KeptOn I S c) (hx : f.Strict c x.toArray) {t : ℝ}
    (ht : 0 < t) :
    (Comparison.exact I).Compares Eq (f.multipliers t x) (f.multipliersOr refusal t x) := by
  refine .bind (Comparison.exact_of_keeps (values_keeps h x)) ?_
  rintro values _ ⟨rfl, hvalues⟩
  have hne : ∀ d ∈ values.map (t * ·), d ≠ 0 := by
    intro d hd
    obtain ⟨i, hi, rfl⟩ := Vector.getElem_of_mem hd
    have hvalue : values[i] = c i x.toArray := hvalues ⟨i, hi⟩
    rw [Vector.getElem_map, hvalue]
    exact mul_ne_zero ht.ne' (not_le.1 (hx i hi)).ne
  rw [Vec.quotientsOr_real hne, Vector.map_map]
  exact .pure rfl

end Family

/-- A barrier that does not divide by zero at the points of `S`, which contains every point found
inside that is as long as one of its points. -/
structure Barrier.Divides (refusal : Fault) (I : Invariant ℝ σ) (S : Array ℝ → Prop)
    (barrier : Barrier ℝ σ) : Prop where
  value : ∀ {n : Nat} (x : Vec ℝ n), S x.toArray →
    (Comparison.exact I).Compares Eq (barrier.value x) (barrier.value x)
  gradient : ∀ {n : Nat} (x : Vec ℝ n), S x.toArray →
    (Comparison.exact I).Compares Eq (barrier.gradient x) (barrier.gradientOr refusal x)
  hessian : ∀ {n : Nat} (x : Vec ℝ n), S x.toArray →
    (Comparison.exact I).Compares (Operator.Alike (.exact I)) (barrier.hessian x)
      (barrier.hessianOr refusal x)
  multipliers : ∀ {n : Nat} {t : ℝ}, 0 < t → ∀ x : Vec ℝ n, S x.toArray →
    (Comparison.exact I).Compares Eq (barrier.multipliers t x) (barrier.multipliersOr refusal t x)
  outside : Region.Compare (.exact I) S (CentralPath.outside barrier)
    (CentralPath.outside barrier)

/-- **The barrier of a family does not divide by zero** where it is defined. -/
theorem Family.divides {f : Family ℝ σ} {c : Nat → Array ℝ → ℝ} (h : f.KeptOn I (f.Strict c) c) :
    (Barrier.family f).Divides refusal I (f.Strict c) where
  value x hx := by
    refine .bind (Family.slack_exact h hx) ?_
    rintro slack _ ⟨rfl, _⟩
    exact .pure rfl
  gradient x hx := Family.barrierGradientOr_compares h hx hx
  hessian x hx := Family.barrierHessianOr_compares h hx hx
  multipliers ht x hx := Family.multipliersOr_compares h hx ht
  outside x y _ _ := (Comparison.exact_of_keeps (Family.outside_keeps h.value (Vec.ofArray y))).mono
    fun _ _ ⟨hout, hstrict⟩ => ⟨hout, hstrict.1⟩

/-- **A barrier in closed form has no quotients.** -/
theorem ClosedForm.divides {b : ClosedForm ℝ σ} (h : (Barrier.closedForm b).KeptOn I S) :
    (Barrier.closedForm b).Divides refusal I S where
  value x hx := (Comparison.exact_of_keeps (h.value x hx)).mono fun _ _ hv => hv.1
  gradient x hx := (Comparison.exact_of_keeps (h.gradient x hx)).mono fun _ _ hv => hv.1
  hessian x hx := (Comparison.exact_of_keeps (h.hessian x hx)).mono fun _ _ ⟨hop, hkept⟩ =>
    hop ▸ hkept.alike
  multipliers _ x hx := (Comparison.exact_of_keeps (h.multipliers _ x hx)).mono fun _ _ hv => hv.1
  outside x y hx hsize := Comparison.exact_of_keeps (h.outside x y hx hsize)

/-! ## Jacobi preconditioners -/

/-- Tensors that describe operators which are alike at every point. -/
theorem Tensor.varying_compareFixed {f f' : Array ℝ → Run ℝ σ (OperatorLike ℝ σ)}
    (h : ∀ x, S x → (Comparison.exact I).Compares (fun o o' => ∃ op op', o = .operator op ∧
      o' = .operator op' ∧ op.Alike (.exact I) op' ∧ op.Fixed I) (f x) (f' x)) :
    Tensor.CompareFixed I S (.varying f) (.varying f') := by
  refine fun x hx => .bind (h x.toArray hx) ?_
  rintro _ _ ⟨op, op', rfl, rfl, hop⟩
  exact .pure hop

theorem Operator.diagonal_fixed (factors : Array ℝ) :
    (Operator.diagonal factors : Operator ℝ σ).Fixed I := by
  intro n
  by_cases h : factors.size = n
  · refine ⟨fun v => Vec.times ⟨factors, h⟩ v, fun v => ?_⟩
    rw [Operator.apply, dif_pos h]
    exact .pure rfl
  · refine ⟨id, fun v => ?_⟩
    rw [Operator.apply, dif_neg h]
    exact .throw

namespace Jacobi

theorem inverseOr_eq (diagonal : Array ℝ) :
    (inverseOr refusal diagonal : Except Fault (Operator ℝ σ)) = .ok (inverse diagonal) := by
  have hentry : inverseEntryOr refusal = fun d : ℝ => pure (inverseEntry d) := by
    funext d
    unfold inverseEntryOr inverseEntry
    split
    · have hpos : 0 < d := by
        simp only [Bool.and_eq_true, decide_eq_true_eq] at *
        tauto
      exact Scalar.quotientOr_real hpos.ne' 1
    · rfl
  rw [inverseOr, hentry, Array.mapM_pure]
  rfl

section

variable {f : Family ℝ σ} {c : Nat → Array ℝ → ℝ} {x : Vec ℝ n}

theorem addConstraintsOr_compares (h : f.KeptOn I S c)
    (hdiagonal : ∀ diagonal ∈ f.hessianDiagonal, ∀ i, Run.KeptOn I S (diagonal i))
    (hS : S x.toArray) : ∀ left i (sum : Vec ℝ n),
      (∀ j, i ≤ j → j < i + left → c j x.toArray ≠ 0) →
        (Comparison.exact I).Compares Eq (addConstraints (Parts.ofFamily f) x left i sum)
          (addConstraintsOr refusal (Parts.ofFamily f) x left i sum) := by
  intro left
  induction left with
  | zero => exact fun i sum _ => .pure rfl
  | succ left ih =>
    intro i sum hne
    have hi : c i x.toArray ≠ 0 := hne i le_rfl (by omega)
    have hrest : ∀ j, i + 1 ≤ j → j < i + 1 + left → c j x.toArray ≠ 0 :=
      fun j h₁ h₂ => hne j (by omega) (by omega)
    refine .bind (Comparison.exact_of_keeps (h.value i x.toArray)) ?_
    rintro v _ ⟨rfl, rfl⟩
    refine .bind ((h.gradient i).compareOn.field _ x hS) ?_
    rintro g _ rfl
    rw [Vec.divideByOr_real (mul_ne_zero hi hi)]
    have hparts : (Parts.ofFamily f).hessianDiagonal = f.hessianDiagonal := rfl
    simp only [Run.ofExcept, pure_bind, hparts]
    cases hd : f.hessianDiagonal with
    | none => exact ih (i + 1) _ hrest
    | some diagonal =>
      refine .bind ((hdiagonal diagonal hd i).compareOn.field _ x hS) ?_
      rintro d _ rfl
      rw [Vec.divideByOr_real hi]
      exact ih (i + 1) _ hrest

theorem operatorAtOr_compares (h : f.KeptOn I S c)
    (hdiagonal : ∀ diagonal ∈ f.hessianDiagonal, ∀ i, Run.KeptOn I S (diagonal i))
    {objective : VectorField ℝ σ} (hobjective : Run.KeptOn I S objective) (hS : S x.toArray)
    (hne : ∀ i < f.count, c i x.toArray ≠ 0) (t : ℝ) :
    (Comparison.exact I).Compares (fun op op' => op = op' ∧ op.Fixed I)
      (operatorAt (Parts.ofFamily f) (.whole f.count) objective t x)
      (operatorAtOr refusal (Parts.ofFamily f) (.whole f.count) objective t x) := by
  refine .bind (hobjective.compareOn.field _ x hS) ?_
  rintro d _ rfl
  refine .check fun count hcount => ?_
  obtain rfl : f.count = count := Except.ok.inj hcount
  refine .bind (addConstraintsOr_compares h hdiagonal hS f.count 0 _ fun i _ hi => hne i (by omega))
    ?_
  rintro b _ rfl
  rw [inverseOr_eq]
  exact .pure ⟨rfl, Operator.diagonal_fixed _⟩

end

end Jacobi

/-- **The Jacobi preconditioner of a family does not divide by zero** where its barrier is defined.
-/
theorem Family.jacobiOr_compareFixed {f : Family ℝ σ} {c : Nat → Array ℝ → ℝ}
    (h : f.KeptOn I S c)
    (hdiagonal : ∀ diagonal ∈ f.hessianDiagonal, ∀ i, Run.KeptOn I S (diagonal i))
    {objective : VectorField ℝ σ} (hobjective : Run.KeptOn I S objective)
    (hS : ∀ x, S x → f.Strict c x) (t : ℝ) :
    Tensor.CompareFixed I S (f.jacobi objective t) (f.jacobiOr refusal objective t) := by
  refine Tensor.varying_compareFixed fun x hx => ?_
  have hne (i : Nat) (hi : i < f.count) : c i x ≠ 0 := (not_le.1 (hS x hx i hi)).ne
  refine .bind (Jacobi.operatorAtOr_compares (x := Vec.ofArray x) h hdiagonal hobjective hx hne t)
    ?_
  rintro op _ ⟨rfl, hfixed⟩
  have hkept : op.Kept I := Operator.Fixed.kept hfixed
  exact .pure ⟨op, op, rfl, rfl, hkept.alike, hfixed⟩

end Descent
