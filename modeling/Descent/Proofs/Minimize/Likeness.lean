import Descent.Proofs.Collections
import Descent.Proofs.Minimize.Callers
import Descent.Proofs.Minimize.Comparison

/-!
# Functions of callers compared

Two sets of functions that callers may give, which compare at the points of a set `S`. Operators
need not be equal for that. An `Operator.Likeness` is a relation that is enough: the actions of
related operators compare, and their multiples and sums are related again.

* `Operator.Alike` is the plainest likeness, between operators of one size;
* `minimizeConjugate_compares`, `minimizeNewton_compares`: minimizations of functions that compare
  return the same point, one of `S`;
* `Conjugate.Problem.posed_determined`, `Newton.Problem.posed_determined`: functions that always
  give the same answers pose a problem whose functions do so.
-/

namespace Descent

variable {α σ : Type} [Numeral α] {c : Comparison α σ} {S : Array α → Prop}

/-- Operators of one size whose actions compare. -/
structure Operator.Alike (c : Comparison α σ) (op op' : Operator α σ) : Prop where
  size : op.size? = op'.size?
  apply : ∀ {n : Nat}, LinearMap.Compare c (op.apply (n := n)) op'.apply

namespace Operator.Alike

variable {op op' left left' right right' : Operator α σ}

omit [Numeral α] in
/-- An operator of the same form and size refuses the same vectors. -/
theorem fits_compares (hkind : op.kindText = op'.kindText) (hsize : op.size? = op'.size?)
    (n : Nat) : c.Compares Eq (op.fits n) (op'.fits n) := by
  have hfits : (op.fits n : Run α σ Unit) = op'.fits n := by
    simp only [fits, misfit, hkind, hsize]
  rw [← hfits]
  unfold fits
  split
  · exact .ite Iff.rfl (fun _ => .pure rfl) fun _ => .throw
  · exact .pure rfl

theorem scaled (h : op.Alike c op') (t : α) : (op.scaled t).Alike c (op'.scaled t) := by
  have hkind : (op.scaled t).kindText = (op'.scaled t).kindText := rfl
  refine ⟨h.size, fun v => ?_⟩
  unfold Operator.apply
  refine .bind (fits_compares hkind h.size _) fun _ _ _ => .bind (h.apply v) ?_
  rintro image _ rfl
  exact .pure rfl

theorem sum (hleft : left.Alike c left') (hright : right.Alike c right') :
    (Operator.sum left right).Alike c (.sum left' right') := by
  have hkind : (Operator.sum left right).kindText = (Operator.sum left' right').kindText := rfl
  have hsize : (Operator.sum left right).size? = (Operator.sum left' right').size? := by
    simp only [Operator.size?, hleft.size, hright.size]
  refine ⟨hsize, fun v => ?_⟩
  unfold Operator.apply
  refine .bind (fits_compares hkind hsize _) fun _ _ _ => .bind (hleft.apply v) ?_
  rintro a _ rfl
  refine .bind (hright.apply v) ?_
  rintro b _ rfl
  exact .pure rfl

theorem add (hleft : left.Alike c left') (hright : right.Alike c right') :
    c.Compares (Alike c) (Run.ofExcept (left.add right)) (Run.ofExcept (left'.add right')) := by
  have hsum := hleft.sum hright
  unfold Operator.add
  rw [← hleft.size, ← hright.size]
  split
  · split
    · exact .pure hsum
    · exact .throw
  · exact .pure hsum

/-- Functions that compare make operators that are alike. -/
theorem function {map map' : VectorField α σ} (size? : Option Int)
    (h : ∀ x, c.Compares Eq (map x) (map' x)) :
    (Operator.function map size?).Alike c (.function map' size?) := by
  have hkind : (Operator.function map size?).kindText = (Operator.function map' size?).kindText :=
    rfl
  refine ⟨rfl, fun {n} v => ?_⟩
  unfold Operator.apply
  refine .bind (fits_compares hkind rfl n) fun _ _ _ => .bind (h v.toArray) ?_
  rintro d _ rfl
  refine .check fun image _ => ?_
  split
  · exact .pure rfl
  · exact .throw

/-! Operators without functions always have the same images. -/

theorem zero : (Operator.zero : Operator α σ).Alike c .zero :=
  ⟨rfl, fun _ => .pure rfl⟩

theorem identity : (Operator.identity : Operator α σ).Alike c .identity :=
  ⟨rfl, fun _ => .pure rfl⟩

theorem diagonal (factors : Array α) :
    (Operator.diagonal factors : Operator α σ).Alike c (.diagonal factors) := by
  refine ⟨rfl, fun {n} v => ?_⟩
  unfold Operator.apply
  by_cases h : factors.size = n
  · rw [dif_pos h]
    exact .pure rfl
  · rw [dif_neg h]
    exact .throw

theorem matrix (k : Nat) (rows : Mat α k k) :
    (Operator.matrix k rows : Operator α σ).Alike c (.matrix k rows) := by
  refine ⟨rfl, fun {n} v => ?_⟩
  unfold Operator.apply
  by_cases h : k = n
  · rw [dif_pos h]
    exact .pure rfl
  · rw [dif_neg h]
    exact .throw

end Operator.Alike

/-- A relation between operators whose actions compare, which goes over to the operators that are
made of them. -/
structure Operator.Likeness (c : Comparison α σ) where
  rel : Operator α σ → Operator α σ → Prop
  apply : ∀ {op op'}, rel op op' → ∀ {n : Nat}, LinearMap.Compare c (op.apply (n := n)) op'.apply
  scaled : ∀ {op op'}, rel op op' → ∀ t, rel (op.scaled t) (op'.scaled t)
  add : ∀ {left left' right right'}, rel left left' → rel right right' →
    c.Compares rel (Run.ofExcept (left.add right)) (Run.ofExcept (left'.add right'))
  function : ∀ {map map' : VectorField α σ} (size? : Option Int),
    (∀ x, c.Compares Eq (map x) (map' x)) → rel (.function map size?) (.function map' size?)

/-- Operators of one size whose actions compare. -/
def Operator.Alike.likeness (c : Comparison α σ) : Operator.Likeness c where
  rel := Operator.Alike c
  apply h := h.apply
  scaled h t := h.scaled t
  add := add
  function := function

/-- Functions that compare at the points of a set. -/
def Run.CompareOn {β : Type} (c : Comparison α σ) (S : Array α → Prop)
    (f f' : Array α → Run α σ β) : Prop :=
  ∀ x, S x → c.Compares Eq (f x) (f' x)

/-- Vector fields whose values at the points of a set compare as vectors. -/
def VectorField.Compare (c : Comparison α σ) (S : Array α → Prop) (f f' : VectorField α σ) : Prop :=
  ∀ (name : String) {n : Nat} (x : Vec α n), S x.toArray →
    c.Compares Eq (f.valueAt name x) (f'.valueAt name x)

/-- Tensors whose operators at the points of a set are alike. -/
def Tensor.Compare (c : Comparison α σ) (S : Array α → Prop) (tensor tensor' : Tensor α σ) : Prop :=
  ∀ {n : Nat} (x : Vec α n), S x.toArray →
    c.Compares (Operator.Alike c) (tensor.operatorAt x) (tensor'.operatorAt x)

/-- Tensors whose operators at the points of a set are like each other. -/
def Tensor.CompareBy (L : Operator.Likeness c) (S : Array α → Prop) (tensor tensor' : Tensor α σ) :
    Prop :=
  ∀ {n : Nat} (x : Vec α n), S x.toArray →
    c.Compares L.rel (tensor.operatorAt x) (tensor'.operatorAt x)

/-- Domains that compare; what is found inside and is as long as a point of `S` belongs to `S`. -/
def Region.Compare (c : Comparison α σ) (S : Array α → Prop) (outside outside' : Region α σ) :
    Prop :=
  ∀ x y, S x → y.size = x.size →
    c.Compares (fun out out' => out = out' ∧ (out = false → S y)) (outside y) (outside' y)

/-- A criterion that compares with itself. -/
def CriterionLike.Compare (c : Comparison α σ) (stop : CriterionLike α σ) : Prop :=
  ∀ criterion, stop.toCriterion = .ok criterion → ∀ {n : Nat} (g : Vec α n) (k : Nat),
    c.Compares Eq (criterion.holds g (.whole k)) (criterion.holds g (.whole k))

/-- Functions that compare have values that compare as vectors. -/
theorem Run.CompareOn.field {f f' : VectorField α σ} (h : Run.CompareOn c S f f') :
    VectorField.Compare c S f f' := by
  intro name n x hx
  refine .bind (h x.toArray hx) ?_
  rintro d _ rfl
  exact .ofExcept fun _ _ => rfl

variable {L : Operator.Likeness c}

/-! ## Linear systems -/

/-- Descriptions of operators that are like each other. -/
def OperatorLike.CompareBy (L : Operator.Likeness c) (A A' : OperatorLike α σ) : Prop :=
  c.Compares L.rel (Run.ofExcept A.toOperator) (Run.ofExcept A'.toOperator)

theorem OperatorLike.mapM_compares {o o' : Option (OperatorLike α σ)}
    (h : Option.Rel (CompareBy L) o o') :
    c.Compares (Option.Rel L.rel) (Run.ofExcept (o.mapM toOperator))
      (Run.ofExcept (o'.mapM toOperator)) := by
  cases h with
  | none => exact .pure .none
  | some hA =>
    simp only [Option.mapM_some, Run.ofExcept_bind, map_eq_pure_bind]
    exact .bind hA fun op op' hop => .pure (.some hop)

open LinearSystem in
/-- **Solves of systems that are like each other return the same point**, as long as the right-hand
side. -/
theorem solveLinear_compares {A A' : OperatorLike α σ} {b guess : Datum α}
    {options : LinearSystem.Options α} {maxIterations : Datum α}
    {preconditioner preconditioner' : Option (OperatorLike α σ)}
    (hA : OperatorLike.CompareBy L A A')
    (hpreconditioner : Option.Rel (OperatorLike.CompareBy L) preconditioner preconditioner') :
    c.Compares (fun x x' => x = x' ∧ ∀ rhs, b.toVector "b" = .ok rhs → x.size = rhs.size)
      (solveLinear A b guess options maxIterations preconditioner)
      (solveLinear A' b guess options maxIterations preconditioner') := by
  unfold solveLinear Task.read
  simp only [Run.ofExcept_bind, Run.ofExcept_pure, bind_assoc, pure_bind]
  refine .check fun tolerance _ => .bind hA fun op op' hop => ?_
  refine .bind (OperatorLike.mapM_compares hpreconditioner) fun smoother smoother' hsmoother => ?_
  refine .check fun rhs hrhs => .check fun start _ => .check fun budget _ => ?_
  have hmaps : Option.Rel (LinearMap.Compare c) (smoother.map fun op => op.apply (n := rhs.size))
      (smoother'.map fun op => op.apply) := by
    cases hsmoother with
    | none => exact .none
    | some hop => exact .some (L.apply hop)
  refine .bind (run_compares ⟨L.apply hop, hmaps⟩ _ _ _ _) ?_
  rintro report _ rfl
  refine .pure ⟨rfl, fun rhs' hrhs' => ?_⟩
  rw [hrhs] at hrhs'
  cases hrhs'
  exact report.point.size_toArray

/-! ## Conjugate gradients -/

namespace Conjugate

theorem smooth_compares {preconditioner preconditioner' : Option (Tensor α σ)}
    (h : Option.Rel (Tensor.CompareBy L S) preconditioner preconditioner') {n : Nat}
    (x g : Vec α n) (hx : S x.toArray) :
    c.Compares Eq (smooth preconditioner x g) (smooth preconditioner' x g) := by
  cases h with
  | none => exact .pure rfl
  | some htensor => exact .bind (htensor x hx) fun op op' hop => L.apply hop g

theorem Problem.posed_compare {gradient gradient' : VectorField α σ}
    {outside outside' : Region α σ} {preconditioner preconditioner' : Option (Tensor α σ)}
    {stop : CriterionLike α σ} {criterion : Criterion α σ} {n : Nat} {w : Vec α n}
    (hw : S w.toArray) (hgradient : VectorField.Compare c S gradient gradient')
    (houtside : Region.Compare c S outside outside')
    (hpreconditioner : Option.Rel (Tensor.CompareBy L S) preconditioner preconditioner')
    (hstop : stop.Compare c) (hcriterion : stop.toCriterion = .ok criterion) :
    Problem.Compare c (fun x => S x.toArray) (posed n gradient outside preconditioner criterion)
      (posed n gradient' outside' preconditioner' criterion) where
  gradient x hx := hgradient _ x hx
  precondition x g hx := smooth_compares hpreconditioner x g hx
  outside x := houtside w.toArray x.toArray hw (by simp)
  stop g k := hstop criterion hcriterion g k

end Conjugate

open Conjugate in
/-- **Minimizations by conjugate gradients of functions that compare return the same point**, one
of `S`. -/
theorem minimizeConjugate_compares {value value' : Option (ScalarField α σ)}
    {gradient gradient' : VectorField α σ}
    {start : Datum α} {options : Conjugate.Options α σ} {outside outside' : Region α σ}
    {preconditioner preconditioner' : Option (Tensor α σ)}
    (hstart : ∀ w, start.toVector "w0" = .ok w → S w)
    (hvalue : Option.Rel (Run.CompareOn c S) value value')
    (hgradient : VectorField.Compare c S gradient gradient')
    (houtside : Region.Compare c S outside outside')
    (hpreconditioner : Option.Rel (Tensor.CompareBy L S) preconditioner preconditioner')
    (hstop : options.stop.Compare c) :
    c.Compares (fun x x' => x = x' ∧ S x)
      (minimizeConjugate value gradient start options outside preconditioner)
      (minimizeConjugate value' gradient' start options outside' preconditioner') := by
  unfold minimizeConjugate Task.read
  simp only [Minimize.Task.ofExcept_setUp, bind_assoc, pure_bind]
  refine .check fun settings hsettings => .check fun w hw => ?_
  have hS : S (Vec.ofArray w).toArray := hstart w hw
  refine .bind (solve_compares (Problem.posed_compare hS hgradient houtside hpreconditioner hstop
    (Options.settings_eq_ok hsettings).stop) _ _ hS) ?_
  rintro report _ ⟨rfl, hreport⟩
  refine .bind (.debugEnabled .conjugate) ?_
  rintro enabled _ rfl
  refine .ite Iff.rfl (fun _ => ?_) fun _ => .pure ⟨rfl, hreport⟩
  cases hvalue with
  | none => exact .bind (.debug _ _) fun _ _ _ => .pure ⟨rfl, hreport⟩
  | some hf =>
    refine .bind (hf _ hreport) ?_
    rintro a _ rfl
    exact .bind (.debug _ _) fun _ _ _ => .pure ⟨rfl, hreport⟩

/-! ## Truncated Newton steps -/

namespace Newton

theorem smootherAt_compares {preconditioner preconditioner' : Option (Tensor α σ)}
    (h : Option.Rel (Tensor.CompareBy L S) preconditioner preconditioner') {n : Nat}
    (x : Vec α n) (hx : S x.toArray) :
    c.Compares (Option.Rel (LinearMap.Compare c)) (smootherAt preconditioner x)
      (smootherAt preconditioner' x) := by
  cases h with
  | none => exact .pure .none
  | some htensor => exact .bind (htensor x hx) fun op op' hop => .pure (.some (L.apply hop))

theorem hessianAt_compares {hessian hessian' : Tensor α σ}
    (h : Tensor.CompareBy L S hessian hessian') {n : Nat} (x : Vec α n) (hx : S x.toArray) :
    c.Compares (LinearMap.Compare c) (hessianAt hessian x) (hessianAt hessian' x) :=
  .bind (h x hx) fun _ _ hop => .pure (L.apply hop)

theorem Problem.posed_compare {gradient gradient' : VectorField α σ} {hessian hessian' : Tensor α σ}
    {outside outside' : Region α σ} {preconditioner preconditioner' : Option (Tensor α σ)}
    {stop : CriterionLike α σ} {criterion : Criterion α σ} {n : Nat} {w : Vec α n}
    (hw : S w.toArray) (hgradient : VectorField.Compare c S gradient gradient')
    (hhessian : Tensor.CompareBy L S hessian hessian')
    (houtside : Region.Compare c S outside outside')
    (hpreconditioner : Option.Rel (Tensor.CompareBy L S) preconditioner preconditioner')
    (hstop : stop.Compare c) (hcriterion : stop.toCriterion = .ok criterion) :
    Problem.Compare c (fun x => S x.toArray)
      (posed n gradient hessian outside preconditioner criterion)
      (posed n gradient' hessian' outside' preconditioner' criterion) where
  gradient x hx := hgradient _ x hx
  hessian x hx := hessianAt_compares hhessian x hx
  precondition x hx := smootherAt_compares hpreconditioner x hx
  outside x := houtside w.toArray x.toArray hw (by simp)
  stop g k := hstop criterion hcriterion g k

end Newton

open Newton in
/-- **Minimizations by truncated Newton steps of functions that compare return the same point**, one
of `S`. -/
theorem minimizeNewton_compares {gradient gradient' : VectorField α σ}
    {hessian hessian' : Tensor α σ} {start : Datum α}
    {outside outside' : Region α σ} {options : Newton.Options α σ}
    {preconditioner preconditioner' : Option (Tensor α σ)}
    (hstart : ∀ w, start.toVector "w0" = .ok w → S w)
    (hgradient : VectorField.Compare c S gradient gradient')
    (hhessian : Tensor.CompareBy L S hessian hessian')
    (houtside : Region.Compare c S outside outside')
    (hpreconditioner : Option.Rel (Tensor.CompareBy L S) preconditioner preconditioner')
    (hstop : options.stop.Compare c) :
    c.Compares (fun x x' => x = x' ∧ S x)
      (minimizeNewton gradient hessian start outside options preconditioner)
      (minimizeNewton gradient' hessian' start outside' options preconditioner') := by
  unfold minimizeNewton Task.read
  simp only [Minimize.Task.ofExcept_setUp, bind_assoc, pure_bind]
  refine .check fun settings hsettings => .check fun w hw => ?_
  have hS : S (Vec.ofArray w).toArray := hstart w hw
  refine .bind (solve_compares (Problem.posed_compare hS hgradient hhessian houtside hpreconditioner
    hstop (Options.settings_eq_ok hsettings).stop) _ _ hS) ?_
  rintro report _ ⟨rfl, hreport⟩
  exact .bind (.debug _ _) fun _ _ _ => .pure ⟨rfl, hreport⟩

/-! ## Functions that always give the same answers -/

/-- Whenever a function is asked about a point, the answer is the same. -/
def Run.Determined {α σ β : Type} (I : Invariant α σ) (on : Logging.Source → Bool)
    (f : Array α → Run α σ β) : Prop :=
  ∀ x, ∃ e, (f x).Settles I on e

/-- Whenever a tensor is asked about a point, the operators that it answers with are alike. -/
def Tensor.Determined {α σ : Type} [Numeral α] (I : Invariant α σ) (on : Logging.Source → Bool)
    (tensor : Tensor α σ) : Prop :=
  Tensor.Compare (.apart I on) (fun _ => True) tensor tensor

/-- Whenever a criterion is asked about a gradient, the answer is the same, whatever the number of
iterations. -/
def CriterionLike.OnGradient {α σ : Type} [Numeral α] (I : Invariant α σ)
    (on : Logging.Source → Bool) (stop : CriterionLike α σ) : Prop :=
  ∀ criterion, stop.toCriterion = .ok criterion → ∀ {n : Nat} (g : Vec α n), ∃ e, ∀ k : Nat,
    (criterion.holds g (.whole k)).Settles I on e

/-- Whenever a criterion is asked about a gradient and a number of iterations, the answer is the
same. -/
def CriterionLike.Determined {α σ : Type} [Numeral α] (I : Invariant α σ)
    (on : Logging.Source → Bool) (stop : CriterionLike α σ) : Prop :=
  ∀ criterion, stop.toCriterion = .ok criterion → ∀ {n : Nat} (g : Vec α n) (k : Nat), ∃ e,
    (criterion.holds g (.whole k)).Settles I on e

section

variable {I : Invariant α σ} {on : Logging.Source → Bool} {gradient : VectorField α σ}
  {hessian : Tensor α σ} {outside : Region α σ} {preconditioner : Option (Tensor α σ)}
  {stop : CriterionLike α σ} {criterion : Criterion α σ}

omit [Numeral α] in
theorem Run.Determined.compareOn {β : Type} {f : Array α → Run α σ β} (h : Run.Determined I on f) :
    Run.CompareOn (.apart I on) (fun _ => True) f f := by
  intro x _
  obtain ⟨e, he⟩ := h x
  exact he.compares he

omit [Numeral α] in
theorem Run.Determined.region (h : Run.Determined I on outside) :
    Region.Compare (.apart I on) (fun _ => True) outside outside := by
  intro _ y _ _
  refine (h.compareOn y trivial).mono fun out out' hout => ?_
  exact ⟨hout, fun _ => trivial⟩

theorem CriterionLike.Determined.compare (h : stop.Determined I on) :
    stop.Compare (.apart I on) := by
  intro criterion hcriterion n g k
  obtain ⟨e, he⟩ := h criterion hcriterion g k
  exact he.compares he

/-- A criterion that looks at the gradient alone always gives the same answers. -/
theorem CriterionLike.OnGradient.determined (h : stop.OnGradient I on) :
    stop.Determined I on := by
  intro criterion hcriterion n g k
  obtain ⟨e, he⟩ := h criterion hcriterion g
  exact ⟨e, he k⟩

/-- The functions of a problem always give the same answers. -/
abbrev Conjugate.Problem.Determined {n : Nat} (I : Invariant α σ) (on : Logging.Source → Bool)
    (problem : Problem α σ n) : Prop :=
  problem.Compare (.apart I on) (fun _ => True) problem

@[inherit_doc Conjugate.Problem.Determined]
abbrev Newton.Problem.Determined {n : Nat} (I : Invariant α σ) (on : Logging.Source → Bool)
    (problem : Problem α σ n) : Prop :=
  problem.Compare (.apart I on) (fun _ => True) problem

/-- Functions of callers that always give the same answers. -/
theorem Conjugate.Problem.posed_determined (hgradient : Run.Determined I on gradient)
    (houtside : Run.Determined I on outside)
    (hpreconditioner : ∀ tensor ∈ preconditioner, tensor.Determined I on)
    (hstop : stop.Determined I on) (hcriterion : stop.toCriterion = .ok criterion) (n : Nat) :
    (posed n gradient outside preconditioner criterion).Determined I on :=
  posed_compare (S := fun _ => True) (w := Vec.zeros n) (L := Operator.Alike.likeness _) trivial
    hgradient.compareOn.field houtside.region (Option.rel_self hpreconditioner) hstop.compare
    hcriterion

/-- Functions of callers that always give the same answers. -/
theorem Newton.Problem.posed_determined (hgradient : Run.Determined I on gradient)
    (hhessian : hessian.Determined I on) (houtside : Run.Determined I on outside)
    (hpreconditioner : ∀ tensor ∈ preconditioner, tensor.Determined I on)
    (hstop : stop.Determined I on) (hcriterion : stop.toCriterion = .ok criterion) (n : Nat) :
    (posed n gradient hessian outside preconditioner criterion).Determined I on :=
  posed_compare (S := fun _ => True) (w := Vec.zeros n) (L := Operator.Alike.likeness _) trivial
    hgradient.compareOn.field hhessian houtside.region (Option.rel_self hpreconditioner)
    hstop.compare hcriterion

end

end Descent
