import Descent.Proofs.Exact.Operator
import Descent.Proofs.Minimize.Likeness

/-!
# Alarms for lengths

Every vector that a caller's function returns, and every vector that an operator of a fixed size is
applied to, has a length that belongs there. An *alarm* is a fault of our choice, put into the
caller's functions and operators: it goes off where a length does not belong. Library code that
checks all lengths has ended in a fault of dimensions by then, so alarms never change what it does.

* `VectorField.alarmed`, `Operator.alarmed`, `Tensor.alarmed`: what callers give, with an alarm;
* `Run.Quiet`: alarms change a run only where it ends in a fault of dimensions;
* `Ray.stretched_eq_through`: between arrays of one length a search has nothing to stretch;
* `Operator.apply_quiet`, `solveLinear_quiet`, `minimizeConjugate_quiet`, `minimizeNewton_quiet`.
-/

namespace Descent

variable {α σ : Type}

/-! ## Runs with alarms -/

/-- A run that ends in a fault of dimensions is excused. -/
def Comparison.measured : Comparison α σ :=
  Comparison.same Invariant.none fun fault => fault.kind = .dimension

/-- A result satisfies `Q`, and unless the run ends in a fault of dimensions it is the same whatever
the alarm is. -/
def Run.Quiet {β : Type} (run : Run α σ β) (alarmed : Fault → Run α σ β) (Q : β → Prop) : Prop :=
  ∀ s, match run.run s with
    | .ok b s' => Q b ∧ ∀ alarm, (alarmed alarm).run s = .ok b s'
    | .error fault s' =>
      fault.kind = .dimension ∨ ∀ alarm, (alarmed alarm).run s = .error fault s'

namespace Comparison

variable {β : Type}

/-- Every run compares with itself. -/
theorem same_self {X : Fault → Prop} (run : Run α σ β) :
    (same Invariant.none X).Compares Eq run run :=
  (same_of_keeps run.keeps_none).mono fun _ _ h => h.1

theorem Compares.quiet {run : Run α σ β} {alarmed : Fault → Run α σ β} {Q : β → Prop}
    (h : ∀ alarm, measured.Compares (fun b d => b = d ∧ Q b) run (alarmed alarm)) :
    run.Quiet alarmed Q := by
  intro s
  have hsame alarm := h alarm s s ⟨rfl, trivial⟩
  cases hr : run.run s with
  | ok b s' =>
    simp only [hr] at hsame
    have hboth alarm : (alarmed alarm).run s = .ok b s' ∧ Q b := by
      have hone := hsame alarm
      cases ha : (alarmed alarm).run s with
      | ok d t =>
        rw [ha] at hone
        obtain ⟨⟨rfl, -⟩, rfl, hQ⟩ := hone
        exact ⟨rfl, hQ⟩
      | error g t =>
        rw [ha] at hone
        exact hone.elim
    exact ⟨(hboth .unequal).2, fun alarm => (hboth alarm).1⟩
  | error fault s' =>
    by_cases hkind : fault.kind = .dimension
    · exact .inl hkind
    · refine .inr fun alarm => ?_
      have hone := hsame alarm
      rw [hr] at hone
      cases ha : (alarmed alarm).run s with
      | ok d t =>
        rw [ha] at hone
        exact absurd hone hkind
      | error g t =>
        rw [ha] at hone
        obtain ⟨rfl, rfl, -⟩ := hone.resolve_left hkind
        rfl

end Comparison

open Comparison (measured same_self)

variable [Numeral α]

/-! ## Vector fields -/

/-- A field with an alarm for values of another length than the point. -/
def VectorField.alarmed (alarm : Fault) (f : VectorField α σ) : VectorField α σ := fun x => do
  let d ← f x
  match d.toVector "" with
  | .ok v => if v.size = x.size then return d else throw alarm
  | .error _ => return d

omit [Numeral α] in
/-- The name only enters the fault. -/
theorem Block.toVector_rename {β : Type} {b : Block β} {name : String} {v : Array β}
    (h : b.toVector name = .ok v) (name' : String) : b.toVector name' = .ok v := by
  unfold toVector at h ⊢
  split at h
  · exact h
  · cases h

theorem Datum.toVector_rename {d : Datum α} {name : String} {v : Array α}
    (h : d.toVector name = .ok v) (name' : String) : d.toVector name' = .ok v := by
  cases d with
  | sequence items =>
    obtain ⟨b, hb, hv⟩ := Fault.bind_eq_ok h
    show Datum.toBlock _ >>= _ = _
    rw [hb]
    exact Block.toVector_rename hv name'
  | vector v => exact h
  | text s => exact h
  | record keys => exact h
  | nothing => cases h
  | number n => cases h
  | flag b => cases h

theorem VectorField.alarmed_compare (alarm : Fault) (f : VectorField α σ) (S : Array α → Prop) :
    VectorField.Compare measured S f (f.alarmed alarm) := by
  intro name n x _
  simp only [VectorField.valueAt, VectorField.alarmed, bind_assoc]
  refine .bind (same_self _) ?_
  rintro d _ rfl
  cases hd : d.toVector "" with
  | error fault =>
    rw [pure_bind]
    exact .ofExcept fun _ _ => rfl
  | ok v =>
    by_cases hsize : v.size = x.toArray.size
    · simp only [if_pos hsize, pure_bind]
      exact .ofExcept fun _ _ => rfl
    · have hvec : d.toVec name n = .error (.lengths name v.size "x" n) := by
        rw [x.size_toArray] at hsize
        simp only [Datum.toVec, Datum.toVector_rename hd name, bind, Except.bind, dif_neg hsize]
        rfl
      rw [hvec]
      exact .excused rfl

/-! ## Operators -/

namespace Operator

/-- Raises the alarm unless the operator has size `n` or none. -/
def fitsOr (alarm : Fault) (op : Operator α σ) (n : Nat) : Run α σ Unit :=
  match op.size? with
  | some size => if size = n then pure () else throw alarm
  | none => pure ()

/-- The image of a vector, with the alarm in the place of every check of lengths. -/
def applyOr (alarm : Fault) {n : Nat} : Operator α σ → Vec α n → Run α σ (Vec α n)
  | zero, _ => pure (Vec.zeros n)
  | identity, v => pure v
  | diagonal factors, v =>
    if h : factors.size = n then pure (Vec.times ⟨factors, h⟩ v) else throw alarm
  | matrix k rows, v =>
    if h : k = n then pure (Mat.apply (h ▸ rows : Mat α n n) v) else throw alarm
  | entries slot entry, v => do
    let rows ← Run.table slot entry n
    return Mat.apply rows v
  | function map size?, v => do
    fitsOr alarm (function map size?) n
    let image ← Run.ofExcept ((← map v.toArray).toVector "operator output")
    if h : image.size = n then return ⟨image, h⟩ else throw alarm
  | sum left right, v => do
    fitsOr alarm (sum left right) n
    let a ← left.applyOr alarm v
    let b ← right.applyOr alarm v
    return a + b
  | scaled inner factor, v => do
    fitsOr alarm (scaled inner factor) n
    let a ← inner.applyOr alarm v
    return factor * a

/-- An operator with an alarm for every length that does not belong to it. It takes vectors of any
length itself. -/
def alarmed (alarm : Fault) (op : Operator α σ) : Operator α σ :=
  .function (fun v => do return .vector (← op.applyOr alarm (Vec.ofArray v)).toArray) none

theorem alarmed_apply (alarm : Fault) (op : Operator α σ) {n : Nat} (v : Vec α n) :
    (op.alarmed alarm).apply v = op.applyOr alarm v := by
  obtain ⟨v, rfl⟩ := v
  exact apply_function_of_fits nofun rfl

omit [Numeral α] in
theorem fits_compares_fitsOr (alarm : Fault) (op : Operator α σ) (n : Nat) :
    measured.Compares Eq (op.fits n) (op.fitsOr alarm n) := by
  unfold fits fitsOr
  cases op.size? with
  | none => exact .pure rfl
  | some size =>
    dsimp only
    split
    · exact .pure rfl
    · exact .excused rfl

theorem apply_compares_applyOr (alarm : Fault) (op : Operator α σ) {n : Nat} (v : Vec α n) :
    measured.Compares Eq (op.apply v) (op.applyOr alarm v) := by
  induction op with
  | zero => exact .pure rfl
  | identity => exact .pure rfl
  | diagonal factors =>
    unfold apply applyOr
    split
    · exact .pure rfl
    · exact .excused rfl
  | matrix k rows =>
    unfold apply applyOr
    split
    · exact .pure rfl
    · exact .excused rfl
  | entries slot entry => exact same_self _
  | function map size? =>
    refine .bind (fits_compares_fitsOr alarm _ n) fun _ _ _ => .bind (same_self _) ?_
    rintro d _ rfl
    refine .check fun image _ => ?_
    split
    · exact .pure rfl
    · exact .excused rfl
  | sum left right ihleft ihright =>
    refine .bind (fits_compares_fitsOr alarm _ n) fun _ _ _ => .bind ihleft ?_
    rintro a _ rfl
    refine .bind ihright ?_
    rintro b _ rfl
    exact .pure rfl
  | scaled inner factor ih =>
    refine .bind (fits_compares_fitsOr alarm _ n) fun _ _ _ => .bind ih ?_
    rintro a _ rfl
    exact .pure rfl

/-- **Alarms do not change what an operator does**, unless it ends in a fault of dimensions. -/
theorem apply_quiet (op : Operator α σ) {n : Nat} (v : Vec α n) :
    (op.apply v).Quiet (fun alarm => (op.alarmed alarm).apply v) fun _ => True := by
  refine Comparison.Compares.quiet fun alarm => ?_
  rw [alarmed_apply]
  exact (apply_compares_applyOr alarm op v).mono fun _ _ h => ⟨h, trivial⟩

/-- Operators whose actions compare. The second one may have given up the size of the first. -/
structure Loosened (op op' : Operator α σ) : Prop where
  size : op'.size? = op.size? ∨ op'.size? = none
  apply : ∀ {n : Nat}, LinearMap.Compare measured (op.apply (n := n)) op'.apply

namespace Loosened

variable {op op' left left' right right' : Operator α σ}

omit [Numeral α] in
/-- What fits an operator fits one that has given up its size. -/
theorem fits_compares (hsize : op'.size? = op.size? ∨ op'.size? = none) (n : Nat) :
    measured.Compares Eq (op.fits n) (op'.fits n) := by
  by_cases hfits : ∀ size, op.size? = some size → size = n
  · have hfits' (size : Int) (h : op'.size? = some size) : size = n := by
      rcases hsize with hsize | hsize
      · exact hfits size (hsize ▸ h)
      · rw [hsize] at h
        cases h
    rw [fits_eq_pure hfits, fits_eq_pure hfits']
    exact .pure rfl
  · push Not at hfits
    obtain ⟨size, hop, hne⟩ := hfits
    rw [fits_eq_throw hop hne]
    exact .excused rfl

theorem scaled (h : Loosened op op') (t : α) : Loosened (op.scaled t) (op'.scaled t) := by
  have hsize : (op'.scaled t).size? = (op.scaled t).size? ∨ (op'.scaled t).size? = none := h.size
  refine ⟨hsize, fun v => ?_⟩
  refine .bind (fits_compares hsize _) fun _ _ _ => .bind (h.apply v) ?_
  rintro image _ rfl
  exact .pure rfl

omit [Numeral α] in
/-- Operators of sizes that do not contradict each other have a sum. -/
theorem add_eq_ok (h : ∀ a b, left.size? = some a → right.size? = some b → a = b) :
    left.add right = .ok (.sum left right) := by
  unfold Operator.add
  split
  · exact if_pos (h _ _ ‹_› ‹_›)
  · rfl

theorem add (hleft : Loosened left left') (hright : Loosened right right') :
    (measured : Comparison α σ).Compares Loosened (Run.ofExcept (left.add right))
      (Run.ofExcept (left'.add right')) := by
  by_cases hsizes : ∀ a b, left.size? = some a → right.size? = some b → a = b
  · have hsizes' (a b : Int) (ha : left'.size? = some a) (hb : right'.size? = some b) : a = b := by
      refine hsizes a b ?_ ?_
      · exact (hleft.size.resolve_right (by simp [ha])).symm.trans ha
      · exact (hright.size.resolve_right (by simp [hb])).symm.trans hb
    have hsum : (Operator.sum left' right').size? = (Operator.sum left right).size? ∨
        (Operator.sum left' right').size? = none := by
      simp only [Operator.size?]
      rcases hleft.size with hl | hl <;> rcases hright.size with hr | hr <;> rw [hl, hr]
      · exact .inl rfl
      · cases hs : left.size? with
        | none => exact .inr rfl
        | some a => exact .inl rfl
      · cases hs : left.size? with
        | none => exact .inl rfl
        | some a =>
          cases ht : right.size? with
          | none => exact .inr rfl
          | some b =>
            rw [hsizes a b hs ht]
            exact .inl rfl
      · exact .inr rfl
    rw [add_eq_ok hsizes, add_eq_ok hsizes']
    refine .pure ⟨hsum, fun v => ?_⟩
    refine .bind (fits_compares hsum _) fun _ _ _ => .bind (hleft.apply v) ?_
    rintro a _ rfl
    refine .bind (hright.apply v) ?_
    rintro b _ rfl
    exact .pure rfl
  · push Not at hsizes
    obtain ⟨a, b, ha, hb, hne⟩ := hsizes
    have hrefused : left.add right = .error (.summands a b) := by
      simp only [Operator.add, ha, hb, if_neg hne]
    rw [hrefused]
    exact .excused rfl

theorem function {map map' : VectorField α σ} (size? : Option Int)
    (h : ∀ x, measured.Compares Eq (map x) (map' x)) :
    Loosened (.function map size?) (.function map' size?) := by
  refine ⟨.inl rfl, fun {n} v => ?_⟩
  refine .bind (fits_compares (.inl rfl) n) fun _ _ _ => .bind (h v.toArray) ?_
  rintro d _ rfl
  refine .check fun image _ => ?_
  split
  · exact .pure rfl
  · exact .throw

/-- Operators that have given up their sizes, as a likeness. -/
def likeness : Operator.Likeness (measured : Comparison α σ) where
  rel := Loosened
  apply h := h.apply
  scaled h t := h.scaled t
  add := add
  function := function

end Loosened

/-- An operator with an alarm has given up its size and does the same otherwise. -/
theorem alarmed_loosened (alarm : Fault) (op : Operator α σ) : Loosened op (op.alarmed alarm) := by
  refine ⟨.inr rfl, fun v => ?_⟩
  rw [alarmed_apply]
  exact apply_compares_applyOr alarm op v

end Operator

/-- The operator that is meant, with an alarm. -/
def OperatorLike.alarmed (alarm : Fault) (A : OperatorLike α σ) : OperatorLike α σ :=
  match A.toOperator with
  | .ok op => .operator (op.alarmed alarm)
  | .error _ => A

/-- The operators at all points with an alarm. -/
def Tensor.alarmed (alarm : Fault) (tensor : Tensor α σ) : Tensor α σ :=
  .varying fun x => do
    let op ← tensor.operatorAt (Vec.ofArray x)
    return .operator (op.alarmed alarm)

open Operator.Loosened (likeness)

theorem OperatorLike.alarmed_compare (alarm : Fault) (A : OperatorLike α σ) :
    A.CompareBy likeness (A.alarmed alarm) := by
  unfold OperatorLike.CompareBy OperatorLike.alarmed
  cases hA : A.toOperator with
  | ok op => exact .pure (op.alarmed_loosened alarm)
  | error fault =>
    dsimp only
    rw [hA]
    exact .throw

theorem Tensor.alarmed_compare (alarm : Fault) (tensor : Tensor α σ) (S : Array α → Prop) :
    tensor.CompareBy likeness S (tensor.alarmed alarm) := by
  rintro _ ⟨x, rfl⟩ _
  have halarmed : (tensor.alarmed alarm).operatorAt (Vec.ofArray x) =
      tensor.operatorAt (Vec.ofArray x) >>= fun op => Pure.pure (op.alarmed alarm) := by
    simp only [Tensor.alarmed, Tensor.operatorAt, bind_assoc, pure_bind]
    rfl
  have hop : measured.Compares likeness.rel (tensor.operatorAt (Vec.ofArray x) >>= Pure.pure)
      ((tensor.alarmed alarm).operatorAt (Vec.ofArray x)) := by
    rw [halarmed]
    refine .bind (same_self _) ?_
    rintro op _ rfl
    exact .pure (op.alarmed_loosened alarm)
  rwa [bind_pure] at hop

/-! ## Searches -/

namespace Ray

theorem product_toArray {n : Nat} (u v : Vec α n) :
    product u.toArray v.toArray = .ok (Vec.dot u v) := by
  obtain ⟨u, rfl⟩ := u
  exact dif_pos v.size_toArray

theorem pointAt_toArray {n : Nat} (x d : Vec α n) (length : α) :
    pointAt x.toArray d.toArray length = .ok (Vec.along x length d).toArray := by
  have hsize : (d.toArray.map (length * ·)).size = n := by simp
  simp only [pointAt, x.size_toArray, d.size_toArray, commonLength, if_pos, stretch, hsize, bind,
    Except.bind]
  rfl

/-- **Between arrays of one length a search has nothing to stretch**: it is the search between
vectors. -/
theorem stretched_eq_through (gradient : VectorField α σ) (outside : Region α σ) {n : Nat}
    (x d : Vec α n) :
    stretched gradient outside x.toArray d.toArray =
      through (gradient.valueAt "gradient") (fun y => outside y.toArray) x d := by
  have hslope (y : Vec α n) :
      (gradient.valueAt "gradient" (Vec.ofArray y.toArray) >>= fun g =>
        Run.ofExcept (product g.toArray d.toArray)) =
      gradient.valueAt "gradient" y >>= fun g => Pure.pure (Vec.dot g d) := by
    obtain ⟨y, rfl⟩ := y
    simp only [product_toArray]
    rfl
  simp only [stretched, through, pointAt_toArray, Run.ofExcept, pure_bind]
  congr 1
  funext length
  exact hslope _

end Ray

/-! ## Solves and minimizations -/

/-- As long as the vector that some data are read as. -/
def Datum.Matches (name : String) (d : Datum α) (x : Array α) : Prop :=
  ∀ v, d.toVector name = .ok v → x.size = v.size

theorem Datum.matches_of_read {name : String} {d : Datum α} {w : Array α}
    (h : d.toVector name = .ok w) : d.Matches name w := by
  intro v hv
  rw [h] at hv
  cases hv
  rfl

theorem solveLinear_quiet (A : OperatorLike α σ) (b guess : Datum α)
    (options : LinearSystem.Options α) (maxIterations : Datum α)
    (preconditioner : Option (OperatorLike α σ)) :
    (solveLinear A b guess options maxIterations preconditioner).Quiet
      (fun alarm => solveLinear (A.alarmed alarm) b guess options maxIterations
        (preconditioner.map (·.alarmed alarm)))
      (b.Matches "b") :=
  Comparison.Compares.quiet fun alarm => solveLinear_compares (A.alarmed_compare alarm)
    (Option.rel_map (fun M => M.alarmed_compare alarm) preconditioner)

/-- A guess of another length than the right-hand side is refused, once what comes before it has
been read. -/
theorem solveLinear_of_guess {A : OperatorLike α σ} {b guess d : Datum α}
    {options : LinearSystem.Options α} {maxIterations : Datum α}
    {preconditioner : Option (OperatorLike α σ)} {tolerance : Number α} {op : Operator α σ}
    {smoother : Option (Operator α σ)} {rhs start : Array α}
    (htolerance : options.tolerance.insist "tolerance" .nonNegative = .ok tolerance)
    (hA : A.toOperator = .ok op)
    (hpreconditioner : preconditioner.mapM OperatorLike.toOperator = .ok smoother)
    (hb : b.toVector "b" = .ok rhs) (hguess : guess.given? = some d)
    (hstart : d.toVector "x0" = .ok start) (hne : start.size ≠ rhs.size) :
    solveLinear A b guess options maxIterations preconditioner =
      throw (.lengths "b" rhs.size "x0" start.size) := by
  have hread : LinearSystem.readGuess rhs.size guess =
      .error (.lengths "b" rhs.size "x0" start.size) := by
    simp only [LinearSystem.readGuess, hguess, hstart, bind, Except.bind, dif_neg hne]
    rfl
  simp only [solveLinear, LinearSystem.Task.read, htolerance, hA, hpreconditioner, hb, hread, bind,
    Except.bind]
  rfl

theorem CriterionLike.compare_self (stop : CriterionLike α σ) : stop.Compare measured :=
  fun _ _ _ _ _ => same_self _

omit [Numeral α] in
theorem Run.compareOn_self {β : Type} (S : Array α → Prop) (f : Array α → Run α σ β) :
    Run.CompareOn measured S f f :=
  fun _ _ => same_self _

/-- Points found inside are as long as the points that they were reached from. -/
theorem Region.compare_self (name : String) (d : Datum α) (outside : Region α σ) :
    Region.Compare measured (d.Matches name) outside outside :=
  fun _ y hx hy => (same_self (outside y)).mono fun _ _ h => ⟨h, fun _ v hv => hy.trans (hx v hv)⟩

theorem minimizeConjugate_quiet (value : Option (ScalarField α σ)) (gradient : VectorField α σ)
    (start : Datum α) (options : Conjugate.Options α σ) (outside : Region α σ)
    (preconditioner : Option (Tensor α σ)) :
    (minimizeConjugate value gradient start options outside preconditioner).Quiet
      (fun alarm => minimizeConjugate value (gradient.alarmed alarm) start options outside
        (preconditioner.map (·.alarmed alarm)))
      (start.Matches "w0") := by
  refine Comparison.Compares.quiet fun alarm => ?_
  exact minimizeConjugate_compares (fun w hw => Datum.matches_of_read hw)
    (Option.rel_self fun f _ => Run.compareOn_self _ f) (gradient.alarmed_compare alarm _)
    (outside.compare_self "w0" start)
    (Option.rel_map (fun tensor => tensor.alarmed_compare alarm _) preconditioner)
    options.stop.compare_self

theorem minimizeNewton_quiet (gradient : VectorField α σ) (hessian : Tensor α σ) (start : Datum α)
    (outside : Region α σ) (options : Newton.Options α σ) (preconditioner : Option (Tensor α σ)) :
    (minimizeNewton gradient hessian start outside options preconditioner).Quiet
      (fun alarm => minimizeNewton (gradient.alarmed alarm) (hessian.alarmed alarm) start outside
        options (preconditioner.map (·.alarmed alarm)))
      (start.Matches "w0") := by
  refine Comparison.Compares.quiet fun alarm => ?_
  exact minimizeNewton_compares (fun w hw => Datum.matches_of_read hw)
    (gradient.alarmed_compare alarm _) (hessian.alarmed_compare alarm _)
    (outside.compare_self "w0" start)
    (Option.rel_map (fun tensor => tensor.alarmed_compare alarm _) preconditioner)
    options.stop.compare_self

end Descent
