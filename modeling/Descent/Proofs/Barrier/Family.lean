import Descent.Proofs.CentralPath.Inside

/-!
# Logarithmic barriers of a family

A family whose values are those of functions `c i`, and whose derivatives are only known to be of
use on a set `S`, makes a barrier of the same kind.

* `Family.outside_keeps`: a point is found inside exactly when no value there is zero or above;
* `Family.barrier_keptOn`: the parts of the barrier keep what the functions of the family keep.
-/

namespace Descent

/-- A list of results, each of which has `Q`. -/
theorem Run.Keeps.mapM {α σ β γ : Type} {I : Invariant α σ} {Q : γ → Prop} {f : β → Run α σ γ}
    (h : ∀ b, (f b).Keeps I Q) (items : List β) :
    (items.mapM f).Keeps I fun results => ∀ c ∈ results, Q c := by
  induction items with
  | nil => exact .pure (by simp)
  | cons item items ih =>
    rw [List.mapM_cons]
    refine .bind (h item) fun c hc => .bind ih fun results hresults => .pure ?_
    exact List.forall_mem_cons.2 ⟨hc, hresults⟩

namespace Family

variable {α σ : Type} [Numeral α] {I : Invariant α σ} {S : Array α → Prop} {f : Family α σ}
  {c : Nat → Array α → α}

/-- The functions of a family: its values are known and keep an invariant everywhere, its
derivatives keep it on a set of points. -/
structure KeptOn (I : Invariant α σ) (S : Array α → Prop) (c : Nat → Array α → α)
    (f : Family α σ) : Prop where
  value : ∀ i x, (f.value i x).Keeps I fun v => v = c i x
  gradient : ∀ i, Run.KeptOn I S (f.gradient i)
  hessian : ∀ hessian ∈ f.hessian, ∀ i, (hessian i).KeptOn I S

/-- No constraint is violated or met with equality at a point. -/
def Strict (f : Family α σ) (c : Nat → Array α → α) (x : Array α) : Prop :=
  ∀ i < f.count, ¬0 ≤ c i x

theorem violatedFrom_keeps (h : ∀ i x, (f.value i x).Keeps I fun v => v = c i x) {n : Nat}
    (x : Vec α n) : ∀ left i, (f.violatedFrom x left i).Keeps I fun out =>
      out = false ↔ ∀ j, i ≤ j → j < i + left → ¬0 ≤ c j x.toArray := by
  intro left
  induction left with
  | zero =>
    intro i
    exact .pure ⟨fun _ j h₁ h₂ => by omega, fun _ => rfl⟩
  | succ left ih =>
    intro i
    refine .bind (h i x.toArray) fun v hv => ?_
    subst hv
    refine .ite (fun hviolated => .pure ?_) fun hstrict => ?_
    · simp only [Bool.true_eq_false, false_iff]
      exact fun hall => hall i (Nat.le_refl i) (by omega) hviolated
    · refine (ih (i + 1)).mono fun out hout => hout.trans
        ⟨fun hall j h₁ h₂ => ?_, fun hall j h₁ h₂ => ?_⟩
      · obtain rfl | hlt := Nat.eq_or_lt_of_le h₁
        · exact hstrict
        · exact hall j hlt (by omega)
      · exact hall j (by omega) (by omega)

/-- **A point is found inside exactly when every constraint is strictly satisfied there.** -/
theorem outside_keeps (h : ∀ i x, (f.value i x).Keeps I fun v => v = c i x) {n : Nat}
    (x : Vec α n) : (f.outside x).Keeps I fun out => out = false ↔ f.Strict c x.toArray := by
  refine (violatedFrom_keeps h x f.count 0).mono fun out hout => hout.trans ?_
  exact ⟨fun hall i hi => hall i (Nat.zero_le i) (by omega), fun hall i _ hi => hall i (by omega)⟩

variable {n : Nat} {x : Vec α n}

theorem values_keeps (h : f.KeptOn I S c) (x : Vec α n) :
    (f.values x).Keeps I fun v => ∀ i : Fin f.count, v[i] = c i x.toArray :=
  .ofFnM fun i => h.value i x.toArray

theorem gradients_keeps (h : f.KeptOn I S c) (hx : S x.toArray) :
    (f.gradients x).Keeps I fun _ => True :=
  (Run.Keeps.ofFnM fun i => VectorField.valueAt_keeps (h.gradient i) _ x hx).mono fun _ _ => trivial

theorem slack_keeps (h : f.KeptOn I S c) (x : Vec α n) :
    (f.slack x).Keeps I fun v => ∀ i : Fin f.count, v[i] = -c i x.toArray := by
  refine .bind (values_keeps h x) fun v hv => .pure fun i => ?_
  rw [Fin.getElem_fin, Vector.getElem_neg, ← Fin.getElem_fin, hv i]

theorem barrierGradient_keeps (h : f.KeptOn I S c) (hx : S x.toArray) :
    (f.barrierGradient x).Keeps I fun _ => True :=
  .bind (slack_keeps h x) fun _ _ => .bind (gradients_keeps h hx) fun _ _ => .pure trivial

theorem curvatures_keeps (h : f.KeptOn I S c) (hx : S x.toArray) :
    (f.curvatures x).Keeps I fun ops => ∀ op ∈ ops, op.Kept I := by
  unfold curvatures
  split
  · exact .pure (by simp)
  · rename_i hessian heq
    exact .mapM (fun i => h.hessian hessian heq i x hx) _

theorem addCurvature_keeps (v : Vec α n) : ∀ (terms : List (α × Operator α σ)) (sum : Vec α n),
    (∀ term ∈ terms, term.2.Kept I) → (addCurvature v sum terms).Keeps I fun _ => True := by
  intro terms
  induction terms with
  | nil => exact fun _ _ => .pure trivial
  | cons term terms ih =>
    intro sum hterms
    obtain ⟨s, op⟩ := term
    obtain ⟨hop, hterms⟩ := List.forall_mem_cons.1 hterms
    exact .bind (hop v) fun image _ => ih _ hterms

theorem barrierHessian_keeps (h : f.KeptOn I S c) (hx : S x.toArray) :
    (f.barrierHessian x).Keeps I (Operator.Kept I) := by
  refine .bind (slack_keeps h x) fun slack _ => ?_
  refine .bind (gradients_keeps h hx) fun jacobian _ => ?_
  refine .bind (curvatures_keeps h hx) fun curvatures hcurvatures => .pure fun v => ?_
  unfold Operator.apply
  refine .bind (Operator.fits_keeps _ _) fun _ _ => ?_
  refine .bind (R := fun _ => True) ?_ fun image _ => .check fun out _ => ?_
  · dsimp only
    split
    · refine .bind (addCurvature_keeps _ _ _ fun term hterm => ?_) fun _ _ => .pure trivial
      exact hcurvatures _ (List.of_mem_zip hterm).2
    · exact .throw
  · split
    · exact .pure trivial
    · exact .throw

theorem multipliers_keeps (h : f.KeptOn I S c) (t : α) (x : Vec α n) :
    (f.multipliers t x).Keeps I fun _ => True :=
  .bind (values_keeps h x) fun _ _ => .pure trivial

/-- **The parts of the logarithmic barrier keep what the functions of the family keep.** -/
theorem barrier_keptOn (h : f.KeptOn I S c)
    (hS : ∀ x y, S x → y.size = x.size → f.Strict c y → S y) :
    (Barrier.family f).KeptOn I S where
  value x _ := .bind (slack_keeps h x) fun _ _ => .pure trivial
  gradient _ hx := barrierGradient_keeps h hx
  hessian _ hx := barrierHessian_keeps h hx
  multipliers t x _ := multipliers_keeps h t x
  outside x y hx hsize := (outside_keeps h.value (Vec.ofArray y)).mono fun _ hout ho =>
    hS x y hx hsize (hout.1 ho)

end Family

end Descent
