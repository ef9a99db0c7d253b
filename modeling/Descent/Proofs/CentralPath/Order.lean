import Descent.Proofs.Barrier.Order
import Descent.Proofs.CentralPath.Jacobi
import Descent.Proofs.CentralPath.Resume
import Mathlib.Data.List.FinRange

/-!
# Paths for constraints in another order

Constrained minimization does not depend on the order of the constraints, with exact real numbers as
scalars: the certificates are the same, apart from the multipliers, which are in the order of the
constraints.

* `InOrder`: a sequence in another order;
* `Family.ofConstraints_reordered`: what a family is if its constraints are in another order;
* `Family.jacobi_compares_reordered`: so is its Jacobi preconditioner;
* `constrained_in_any_order`: the minimizers.
-/

namespace Descent

/-! ## Sequences -/

/-- The second sequence has the items of the first in another order: at place `i` is what was at
`order i`. -/
structure InOrder {m : Nat} {β : Type} (order : Equiv.Perm (Fin m)) (first second : Array β) :
    Prop where
  first_size : first.size = m
  second_size : second.size = m
  item : ∀ i : Fin m, first[(order i : Nat)]? = second[(i : Nat)]?

namespace InOrder

variable {m : Nat} {β γ : Type} {order : Equiv.Perm (Fin m)} {first second : Array β}

theorem symm (h : InOrder order first second) : InOrder order.symm second first where
  first_size := h.second_size
  second_size := h.first_size
  item i := by rw [← h.item, Equiv.apply_symm_apply]

theorem getElem?_placed (h : InOrder order first second) (i : Nat) :
    first[Family.placed order i]? = second[i]? := by
  by_cases hi : i < m
  · have hplace : Family.placed order i = order ⟨i, hi⟩ := Family.placed_fin order ⟨i, hi⟩
    rw [hplace]
    exact h.item ⟨i, hi⟩
  · have hplace : Family.placed order i = i := dif_neg hi
    rw [hplace, Array.getElem?_eq_none (by have := h.first_size; omega),
      Array.getElem?_eq_none (by have := h.second_size; omega)]

theorem perm (h : InOrder order first second) : second.toList.Perm first.toList := by
  obtain ⟨rfl, hsecond, hitem⟩ := h
  have hfirst : first.toList = List.ofFn fun i : Fin first.size => first[i] :=
    List.ext_getElem (by simp) (by simp)
  have hreordered : second.toList = List.ofFn ((fun i : Fin first.size => first[i]) ∘ order) := by
    refine List.ext_getElem (by simpa using hsecond) fun i hi hi' => ?_
    have hplace := hitem ⟨i, by simpa using hi'⟩
    rw [Array.length_toList] at hi
    rw [Array.getElem?_eq_getElem (order _).isLt, Array.getElem?_eq_getElem hi] at hplace
    simpa using (Option.some.inj hplace).symm
  rw [hfirst, hreordered]
  exact order.ofFn_comp_perm _

/-- As many items have a part. -/
theorem filterMap_size (h : InOrder order first second) (part : β → Option γ) :
    (second.filterMap part).size = (first.filterMap part).size := by
  have hlength := (h.perm.filterMap part).length_eq
  rwa [← Array.toList_filterMap, ← Array.toList_filterMap] at hlength

end InOrder

/-! ## Families -/

namespace Family

variable {α β γ σ : Type} {m : Nat} {order : Equiv.Perm (Fin m)}

/-- A part that all items have, item by item. -/
theorem commonPart_item {what : String} {part : β → Option γ} {items : Array β} {parts : Array γ}
    (h : commonPart what part items = .ok (some parts)) (i : Nat) :
    parts[i]? = items[i]?.bind part := by
  unfold commonPart at h
  dsimp only at h
  split at h
  · cases h
  · split at h
    · rename_i hsize
      cases h
      have hlength : (items.toList.filterMap part).length = items.toList.length := by
        rwa [← Array.toList_filterMap]
      have hitem := List.getElem?_filterMap_of_length hlength i
      rwa [← Array.toList_filterMap, Array.getElem?_toList, Array.getElem?_toList] at hitem
    · cases h

theorem commonPart_reordered {items items' : Array β} (h : InOrder order items items')
    (what : String) (part : β → Option γ) :
    (∃ fault, commonPart what part items = .error fault ∧
      commonPart what part items' = .error fault) ∨
    ∃ o o', commonPart what part items = .ok o ∧ commonPart what part items' = .ok o' ∧
      Option.Rel (fun parts parts' => ∀ i, parts[placed order i]? = parts'[i]?) o o' := by
  have hsize := h.filterMap_size part
  have hitems : items'.size = items.size := h.second_size.trans h.first_size.symm
  have hempty : (items'.filterMap part).isEmpty = (items.filterMap part).isEmpty := by
    simp only [Array.isEmpty, hsize]
  by_cases hnone : (items.filterMap part).isEmpty
  · have hfirst : commonPart what part items = .ok none := if_pos hnone
    have hsecond : commonPart what part items' = .ok none := if_pos (hempty.trans hnone)
    exact .inr ⟨none, none, hfirst, hsecond, .none⟩
  · have hnone' : ¬(items'.filterMap part).isEmpty := by rwa [hempty]
    by_cases hall : (items.filterMap part).size = items.size
    · have hfirst : commonPart what part items = .ok (some (items.filterMap part)) :=
        (if_neg hnone).trans (if_pos hall)
      have hsecond : commonPart what part items' = .ok (some (items'.filterMap part)) :=
        (if_neg hnone').trans (if_pos (by omega))
      refine .inr ⟨_, _, hfirst, hsecond, .some fun i => ?_⟩
      rw [commonPart_item hfirst, commonPart_item hsecond, h.getElem?_placed]
    · exact .inl ⟨_, (if_neg hnone).trans (if_neg hall),
        (if_neg hnone').trans (if_neg (by omega))⟩

/-- **Constraints in another order** make the same family in that order, or the same fault. -/
theorem ofConstraints_reordered {items items' : Array (Constraint α σ)}
    (h : InOrder order items items') :
    ofConstraints items' = (·.reordered order) <$> ofConstraints items := by
  have hitems : items'.size = items.size := h.second_size.trans h.first_size.symm
  unfold ofConstraints
  rcases commonPart_reordered h "Hessian" Constraint.hessian with
    ⟨fault, hfirst, hsecond⟩ | ⟨hessians, hessians', hfirst, hsecond, hhessians⟩
  · rw [hfirst, hsecond]
    rfl
  rcases commonPart_reordered h "Hessian diagonal" Constraint.hessianDiagonal with
    ⟨fault, hfirst', hsecond'⟩ | ⟨diagonals, diagonals', hfirst', hsecond', hdiagonals⟩
  · rw [hfirst, hsecond, hfirst', hsecond']
    rfl
  rw [hfirst, hsecond, hfirst', hsecond']
  have hparts {γ : Type} (absent : γ) {o o' : Option (Array γ)}
      (ho : Option.Rel (fun parts parts' => ∀ i, parts[placed order i]? = parts'[i]?) o o') :
      o'.map (fun parts i => parts.getD i absent) =
        (o.map fun parts i => parts.getD i absent).map fun part i => part (placed order i) := by
    cases ho with
    | none => rfl
    | some hat =>
      refine congrArg some (funext fun i => ?_)
      simp only [Array.getD_eq_getD_getElem?, hat]
  show Except.ok _ = Except.ok _
  simp only [reordered, hitems, h.getElem?_placed, hparts _ hhessians, hparts _ hdiagonals]

theorem count_of_ofConstraints {items : Array (Constraint α σ)} {f : Family α σ}
    (h : ofConstraints items = .ok f) : f.count = items.size := by
  obtain ⟨_, _, h⟩ := Fault.bind_eq_ok h
  obtain ⟨_, _, h⟩ := Fault.bind_eq_ok h
  cases h
  rfl

end Family

/-- The functions of a constraint always give the same answers, and it has a value everywhere. -/
structure Constraint.Answers {α σ : Type} [Numeral α] (I : Invariant α σ)
    (on : Logging.Source → Bool) (c : Constraint α σ) : Prop where
  value : ∀ x, ∃ v, (c.value x).Settles I on (.ok v)
  gradient : Run.Determined I on c.gradient
  hessian : ∀ hessian ∈ c.hessian, hessian.Determined I on
  diagonal : ∀ diagonal ∈ c.hessianDiagonal, Run.Determined I on diagonal

section

variable {α σ : Type} [Numeral α] {I : Invariant α σ} {on : Logging.Source → Bool}

/-- Constraints that always give the same answers make such a family. -/
theorem Family.answers_of_ofConstraints {items : Array (Constraint α σ)} {f : Family α σ}
    (h : ofConstraints items = .ok f) (hall : ∀ c ∈ items, c.Answers I on) : f.Answers I on := by
  obtain ⟨hessians, hhessians, h⟩ := Fault.bind_eq_ok h
  obtain ⟨diagonals, hdiagonals, h⟩ := Fault.bind_eq_ok h
  cases h
  have hitem (i : Fin items.size) : items[(i : Nat)]? = some items[i] :=
    Array.getElem?_eq_getElem i.isLt
  have hanswers (i : Fin items.size) : items[i].Answers I on := hall _ (Array.getElem_mem i.isLt)
  refine ⟨fun i x => ?_, fun i => ?_, fun hessian hmem i => ?_, fun diagonal hmem i => ?_⟩
  · simp only [hitem, Option.map_some, Option.getD_some]
    exact (hanswers i).value x
  · simp only [hitem, Option.map_some, Option.getD_some]
    exact (hanswers i).gradient
  · obtain ⟨parts, rfl, rfl⟩ := Option.mem_map.1 hmem
    simp only [Array.getD_eq_getD_getElem?, commonPart_item hhessians, hitem, Option.bind_some]
    cases hpart : items[i].hessian with
    | none => exact fun x _ => .bind .throw fun _ _ (_ : False) => by contradiction
    | some tensor => exact (hanswers i).hessian tensor hpart
  · obtain ⟨parts, rfl, rfl⟩ := Option.mem_map.1 hmem
    simp only [Array.getD_eq_getD_getElem?, commonPart_item hdiagonals, hitem, Option.bind_some]
    cases hpart : items[i].hessianDiagonal with
    | none => exact fun x => ⟨_, .throw⟩
    | some field => exact (hanswers i).diagonal field hpart

/-! ## Functions that always give the same answers -/

omit [Numeral α] in
theorem Run.Determined.returning {β : Type} {f : Array α → Run α σ β} (h : Run.Determined I on f) :
    Run.CompareOn (.returning I on) (fun _ => True) f f :=
  fun x hx => (h.compareOn x hx).returning

theorem Tensor.Determined.returning {tensor : Tensor α σ} (h : tensor.Determined I on) :
    Tensor.CompareBy (Operator.Alike.likeness (.returning I on)) (fun _ => True) tensor tensor :=
  fun x hx => (h x hx).returning.mono fun _ _ hop => ⟨hop.size, fun v => (hop.apply v).returning⟩

theorem CriterionLike.Determined.returning {stop : CriterionLike α σ} (h : stop.Determined I on) :
    stop.Compare (.returning I on) :=
  fun criterion hcriterion _ g k => (h.compare criterion hcriterion g k).returning

end

/-! ## Minimizers -/

/-- No preconditioner, or the one of the family for an objective with the given second derivatives
on the diagonal. -/
def Family.smoother {α σ : Type} [Numeral α] (f : Family α σ)
    (diagonal : Option (VectorField α σ)) : Option (CentralPath.Preconditioner α σ) :=
  diagonal.map fun d t => return f.jacobi d t

open CentralPath

section

variable {σ : Type} [RealText] {I : Invariant ℝ σ} {on : Logging.Source → Bool}

namespace Family

variable {f : Family ℝ σ} {diagonal : Option (VectorField ℝ σ)}

theorem jacobi_compares_reordered (h : f.Answers I on) (order : Equiv.Perm (Fin f.count))
    {objective : VectorField ℝ σ} (hobjective : Run.Determined I on objective) (t : ℝ) :
    Tensor.CompareBy (Operator.Alike.likeness (.returning I on)) (fun _ => True)
      (f.jacobi objective t) ((f.reordered order).jacobi objective t) := by
  intro n x hx
  rw [operatorAt_jacobi, operatorAt_jacobi]
  refine .bind (hobjective.returning.field _ x hx) ?_
  rintro d _ rfl
  refine .bind (barrierDiagonal_reordered h order x) ?_
  rintro b _ rfl
  exact .pure (.diagonal _)

theorem smoother_reordered (h : f.Answers I on) (order : Equiv.Perm (Fin f.count))
    (hdiagonal : ∀ d ∈ diagonal, Run.Determined I on d) :
    Option.Rel (Preconditioner.CompareBy (Operator.Alike.likeness (.returning I on))
      fun _ => True) (f.smoother diagonal) ((f.reordered order).smoother diagonal) := by
  cases diagonal with
  | none => exact .none
  | some d => exact .some fun t => .pure (jacobi_compares_reordered h order (hdiagonal d rfl) t)

theorem multipliersMatch_reordered (h : f.Answers I on) (order : Equiv.Perm (Fin f.count)) :
    MultipliersMatch (.returning I on) (fun _ => True) (InOrder order) (.family f)
      (.family (f.reordered order)) :=
  fun t x _ => (multipliers_reordered h order x t).mono fun _ _ ⟨hsize, hcount, hitem⟩ =>
    ⟨hsize, hcount, hsize.symm.trans hcount, hitem⟩

end Family

variable {value : Option (ScalarField ℝ σ)} {gradient : VectorField ℝ σ} {hessian : Tensor ℝ σ}
  {diagonal : Option (VectorField ℝ σ)} {conjugate : Conjugate.Options ℝ σ}
  {newton : Newton.Options ℝ σ}

/-- What the minimizers return for a family, they return for the family in another order. -/
theorem constrained_compares_reordered {f : Family ℝ σ} (h : f.Answers I on)
    (order : Equiv.Perm (Fin f.count)) (start : Datum ℝ) (path : CentralPath.Options ℝ)
    (hvalue : ∀ f ∈ value, Run.Determined I on f) (hgradient : Run.Determined I on gradient)
    (hhessian : hessian.Determined I on) (hdiagonal : ∀ d ∈ diagonal, Run.Determined I on d)
    (hconjugate : conjugate.stop.Determined I on) (hnewton : newton.stop.Determined I on) :
    (Comparison.returning I on).Compares (Certificate.Matches (InOrder order))
      (minimizeConjugateConstrained value gradient start (.family f) path conjugate
        (f.smoother diagonal))
      (minimizeConjugateConstrained value gradient start (.family (f.reordered order)) path
        conjugate ((f.reordered order).smoother diagonal)) ∧
    (Comparison.returning I on).Compares (Certificate.Matches (InOrder order))
      (minimizeNewtonConstrained gradient hessian start (.family f) path newton
        (f.smoother diagonal))
      (minimizeNewtonConstrained gradient hessian start (.family (f.reordered order)) path newton
        ((f.reordered order).smoother diagonal)) := by
  have hvalues : Option.Rel (Run.CompareOn (.returning I on) fun _ => True) value value :=
    Option.rel_self fun f hf => (hvalue f hf).returning
  have hbarrier := Family.barrier_near_reordered h order
  have hsmoother := Family.smoother_reordered h order hdiagonal
  have hstart : ∀ w, start.toVector "w0" = .ok w → True := fun _ _ => trivial
  constructor
  · exact (minimizeConjugateConstrained_matches hstart hvalues hgradient.returning.field hbarrier
      (fun t x hx => Family.multipliersMatch_reordered h order t x hx) hsmoother
      hconjugate.returning).mono fun _ _ hr => hr.1
  · exact (minimizeNewtonConstrained_matches hstart hgradient.returning.field hhessian.returning
      hbarrier (fun t x hx => Family.multipliersMatch_reordered h order t x hx) hsmoother
      hnewton.returning).mono fun _ _ hr => hr.1

/-- **The order of constraints does not matter**, over the reals. Constraints that are given in
another order are refused for the same reason, or they make a family for which both constrained
minimizers return whenever they do for the first one: the same certificate, with the multipliers in
the other order. The preconditioner is left out, or it is that of the family. The functions of the
caller always give the same answers, and constraints have a value everywhere. -/
theorem constrained_in_any_order {m : Nat} (order : Equiv.Perm (Fin m))
    {items items' : Array (Constraint ℝ σ)} (hitems : InOrder order items items')
    (hall : ∀ c ∈ items, c.Answers I on) (start : Datum ℝ) (path : CentralPath.Options ℝ)
    (hvalue : ∀ f ∈ value, Run.Determined I on f) (hgradient : Run.Determined I on gradient)
    (hhessian : hessian.Determined I on) (hdiagonal : ∀ d ∈ diagonal, Run.Determined I on d)
    (hconjugate : conjugate.stop.Determined I on) (hnewton : newton.stop.Determined I on) :
    match Family.ofConstraints items, Family.ofConstraints items' with
    | .ok f, .ok f' =>
      Run.Match I on (Certificate.Matches (InOrder order))
        (minimizeConjugateConstrained value gradient start (.family f) path conjugate
          (f.smoother diagonal))
        (minimizeConjugateConstrained value gradient start (.family f') path conjugate
          (f'.smoother diagonal)) ∧
      Run.Match I on (Certificate.Matches (InOrder order))
        (minimizeNewtonConstrained gradient hessian start (.family f) path newton
          (f.smoother diagonal))
        (minimizeNewtonConstrained gradient hessian start (.family f') path newton
          (f'.smoother diagonal))
    | .error fault, .error fault' => fault = fault'
    | _, _ => False := by
  rw [Family.ofConstraints_reordered hitems]
  cases hfamily : Family.ofConstraints items with
  | error fault => exact rfl
  | ok f =>
    obtain rfl : f.count = m := (Family.count_of_ofConstraints hfamily).trans hitems.first_size
    have h := Family.answers_of_ofConstraints hfamily hall
    obtain ⟨hconj, hnewt⟩ := constrained_compares_reordered h order start path hvalue hgradient
      hhessian hdiagonal hconjugate hnewton
    have hback := constrained_compares_reordered (h.reordered order) order.symm start path hvalue
      hgradient hhessian hdiagonal hconjugate hnewton
    have hsymm : (f.reordered order).reordered (m := (f.reordered order).count) order.symm = f :=
      f.reordered_symm order
    rw [hsymm] at hback
    exact ⟨.of_compares hconj hback.1, .of_compares hnewt hback.2⟩

end

/-- The constraint that a number is at most one, or at least minus one. -/
noncomputable def unitBound (sign : ℝ) : Constraint ℝ Unit where
  value x := return sign * x.getD 0 0 - 1
  gradient _ := return .vector #[sign]

/-- Half the square of a number, minimized between minus one and one with the Jacobi preconditioner;
the two bounds are swapped. -/
theorem constrained_in_any_order_interval :
    letI := RealText.mute
    let on := (Session.initial () : Session ℝ Unit).listens
    let order : Equiv.Perm (Fin 2) := Equiv.swap 0 1
    let hessian : Tensor ℝ Unit := .constant (.operator .identity)
    let newton : Newton.Options ℝ Unit := {}
    let diagonal : Option (VectorField ℝ Unit) := some fun _ => return .vector #[1]
    ∃ f f', Family.ofConstraints #[unitBound 1, unitBound (-1)] = .ok f ∧
      Family.ofConstraints #[unitBound (-1), unitBound 1] = .ok f' ∧
      Run.Match Invariant.none on (Certificate.Matches (InOrder order))
        (minimizeConjugateConstrained none identityField (.vector #[0]) (.family f) {} unitNorm
          (f.smoother diagonal))
        (minimizeConjugateConstrained none identityField (.vector #[0]) (.family f') {} unitNorm
          (f'.smoother diagonal)) ∧
      Run.Match Invariant.none on (Certificate.Matches (InOrder order))
        (minimizeNewtonConstrained identityField hessian (.vector #[0]) (.family f) {} newton
          (f.smoother diagonal))
        (minimizeNewtonConstrained identityField hessian (.vector #[0]) (.family f') {} newton
          (f'.smoother diagonal)) := by
  let _ := RealText.mute
  intro on order hessian newton diagonal
  have hitems : InOrder order #[unitBound 1, unitBound (-1)] #[unitBound (-1), unitBound 1] :=
    ⟨rfl, rfl, Fin.forall_fin_two.2 ⟨rfl, rfl⟩⟩
  have hbound (sign : ℝ) : (unitBound sign).Answers Invariant.none on :=
    ⟨fun x => ⟨_, .pure⟩, fun x => ⟨_, .pure⟩, nofun, nofun⟩
  have hall : ∀ c ∈ #[unitBound 1, unitBound (-1)], c.Answers Invariant.none on := by
    intro c hc
    obtain rfl | rfl : c = unitBound 1 ∨ c = unitBound (-1) := by simpa using hc
    · exact hbound 1
    · exact hbound (-1)
  have hidentity : Run.Determined Invariant.none on identityField := fun x => ⟨_, .pure⟩
  have hhessian : hessian.Determined Invariant.none on := fun x _ => .pure ⟨rfl, fun v => .pure rfl⟩
  have hdiagonal : ∀ d ∈ diagonal, Run.Determined Invariant.none on d := by
    intro d hd x
    obtain rfl := Option.some.inj hd
    exact ⟨_, .pure⟩
  have hstop (tolerance : ℝ) : (CriterionLike.criterion (.gradientNorm tolerance) :
      CriterionLike ℝ Unit).Determined Invariant.none on := by
    rintro _ ⟨⟩ n g k
    exact ⟨_, .pure⟩
  have hvalue : ∀ f ∈ (none : Option (ScalarField ℝ Unit)), Run.Determined Invariant.none on f :=
    nofun
  have hconjugate : unitNorm.stop.Determined Invariant.none on := hstop 1
  have hnewton : newton.stop.Determined Invariant.none on := hstop 1e-8
  have h := constrained_in_any_order order hitems hall (.vector #[0]) {} hvalue hidentity hhessian
    hdiagonal hconjugate hnewton
  cases hfirst : Family.ofConstraints #[unitBound 1, unitBound (-1)] with
  | error fault => cases hfirst
  | ok f =>
    cases hsecond : Family.ofConstraints #[unitBound (-1), unitBound 1] with
    | error fault => cases hsecond
    | ok f' =>
      rw [hfirst, hsecond] at h
      exact ⟨f, f', rfl, rfl, h⟩

end Descent
