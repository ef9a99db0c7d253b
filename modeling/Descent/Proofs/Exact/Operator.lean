import Descent.Proofs.Exact.Euclidean
import Descent.Proofs.Run.Triple
import Descent.Operator.Interpret

/-!
# What operators do to vectors of one length

An operator insists on its size, if it has one. Over the reals an operator that has images of all
vectors of a length therefore fits to this length, and so do its multiples and its sums with others.

* `Operator.apply_of_misfit`: an operator refuses vectors of another length.
* `Operator.Applies`: the operator acts on the vectors of one length as a map does;
  `Applies.scaled`, `Applies.sum`, `Operator.add_ensures`: multiples and sums.
* `Operator.apply_function`, `Tensor.operatorAt_eq`: what operators and tensors do that were made
  from functions.
-/

namespace Descent

namespace Operator

section

variable {α σ : Type} {n : Nat} {op left right : Operator α σ}

/-- An operator that insists on no other size refuses nothing. -/
theorem fits_eq_pure (h : ∀ size, op.size? = some size → size = n) :
    op.fits n = (pure () : Run α σ Unit) := by
  unfold fits
  split
  · exact if_pos (h _ ‹_›)
  · rfl

/-- An operator that insists on another size refuses everything. -/
theorem fits_eq_throw {size : Int} (hsize : op.size? = some size) (hne : size ≠ n) :
    op.fits n = (throw (op.misfit n) : Run α σ Unit) := by
  unfold fits
  rw [hsize]
  exact if_neg hne

theorem size?_sum {size : Int} (h : (sum left right).size? = some size) :
    left.size? = some size ∨ right.size? = some size := by
  cases hleft : left.size? with
  | none => exact .inr (by simpa [size?, hleft] using h)
  | some k => exact .inl (by simpa [size?, hleft] using h)

/-- Operators that insist on no two sizes are never refused as summands. -/
theorem add_eq_sum (h : ∀ k l, left.size? = some k → right.size? = some l → k = l) :
    left.add right = .ok (sum left right) := by
  unfold add
  split
  · exact if_pos (h _ _ ‹_› ‹_›)
  · rfl

theorem add_eq_error {k l : Int} (hleft : left.size? = some k) (hright : right.size? = some l)
    (hne : k ≠ l) : left.add right = .error (.summands k l) := by
  unfold add
  rw [hleft, hright]
  exact if_neg hne

variable [Numeral α]

/-- The operator has an image for every vector of length `n`, namely what `A` says. -/
def Applies (I : Invariant α σ) (op : Operator α σ) (A : Vec α n → Vec α n) : Prop :=
  ∀ v : Vec α n, (op.apply v).Yields I (A v)

/-- An operator that insists on another size refuses the vector at once. -/
theorem apply_of_misfit {size : Int} (hsize : op.size? = some size) (hne : size ≠ n)
    (v : Vec α n) : op.apply v = throw (op.misfit n) := by
  cases op with
  | zero | identity | entries => cases hsize
  | diagonal factors =>
    cases hsize
    exact dif_neg fun h => hne (congrArg Nat.cast h)
  | matrix k rows =>
    cases hsize
    exact dif_neg fun h => hne (congrArg Nat.cast h)
  | function map size? =>
    rw [apply, fits_eq_throw hsize hne]
    rfl
  | sum left right =>
    rw [apply, fits_eq_throw hsize hne]
    rfl
  | scaled inner factor =>
    rw [apply, fits_eq_throw hsize hne]
    rfl

/-- A wrapped map, of the right size or of none, that returns the entries of a vector. -/
theorem apply_function_of_fits {map : VectorField α σ} {size? : Option Int} {v : Vec α n}
    {run : Run α σ (Vec α n)} (hsize : ∀ size, size? = some size → size = n)
    (h : map v.toArray = run >>= fun image => pure (.vector image.toArray)) :
    (function map size?).apply v = run := by
  have hfits : (function map size?).fits n = pure () := fits_eq_pure hsize
  have hread (image : Vec α n) :
      Run.ofExcept ((Datum.vector image.toArray).toVector "operator output") =
        (pure image.toArray : Run α σ _) :=
    rfl
  rw [apply, hfits, pure_bind, h, bind_assoc]
  simp only [pure_bind, hread, Vector.size_toArray, dite_true]
  exact bind_pure run

/-- A wrapped map of the right size that returns the entries of a vector. -/
theorem apply_function {map : VectorField α σ} {v : Vec α n} {run : Run α σ (Vec α n)}
    (h : map v.toArray = run >>= fun image => pure (.vector image.toArray)) :
    (function map (some n)).apply v = run :=
  apply_function_of_fits (fun _ hsize => (Option.some.inj hsize).symm) h

end

variable {σ : Type} {n : Nat} {I : Invariant ℝ σ} {op left right : Operator ℝ σ}
  {A B : Vec ℝ n → Vec ℝ n}

theorem fits_yields (h : ∀ size, op.size? = some size → size = n) : (op.fits n).Yields I () := by
  rw [fits_eq_pure h]
  exact .pure

variable [RealText]

/-- An operator that has images of vectors of length `n` does not insist on another length. -/
theorem Applies.size_eq (h : op.Applies I A) {s : Session ℝ σ} (hs : s.Has I) (size : Int)
    (hsize : op.size? = some size) : size = n := by
  by_contra hne
  have himage := h 0 s hs
  rw [apply_of_misfit hsize hne] at himage
  exact himage

theorem Applies.scaled (h : op.Applies I A) (factor : ℝ) :
    (op.scaled factor).Applies I fun v => factor • A v := by
  intro v s hs
  have hsize (size : Int) (hop : (op.scaled factor).size? = some size) : size = n :=
    h.size_eq hs size hop
  have himage : ((op.scaled factor).apply v).Yields I (factor • A v) := by
    rw [apply, ← Vec.hmul_eq_smul]
    exact (fits_yields hsize).bind ((h v).bind .pure)
  exact himage s hs

theorem Applies.sum (hleft : left.Applies I A) (hright : right.Applies I B) :
    (sum left right).Applies I fun v => A v + B v := by
  intro v s hs
  have hsize (size : Int) (h : (Operator.sum left right).size? = some size) : size = n :=
    (size?_sum h).elim (hleft.size_eq hs size) (hright.size_eq hs size)
  have himage : ((Operator.sum left right).apply v).Yields I (A v + B v) := by
    rw [apply]
    exact (fits_yields hsize).bind ((hleft v).bind ((hright v).bind .pure))
  exact himage s hs

/-- A sum with an operator that maps all vectors to zero acts as the other summand. -/
theorem apply_sum_of_zero (hfits : ∀ size, left.size? = some size → size = n)
    (hsize : right.size? = some (n : Int)) (hzero : ∀ v : Vec ℝ n, right.apply v = pure 0)
    (v : Vec ℝ n) : (sum left right).apply v = left.apply v := by
  have hsum (size : Int) (h : (Operator.sum left right).size? = some size) : size = n := by
    rcases size?_sum h with h | h
    · exact hfits size h
    · rw [hsize] at h
      exact (Option.some.inj h).symm
  rw [apply, fits_eq_pure hsum, pure_bind]
  simp only [hzero, pure_bind, add_zero, bind_pure]

/-- Operators for vectors of one length are never refused as summands. -/
theorem add_ensures (hleft : left.Applies I A) (hright : right.Applies I B) :
    (Run.ofExcept (left.add right)).Ensures I fun op => op.Applies I fun v => A v + B v := by
  intro s hs
  have hadd : left.add right = .ok (sum left right) := add_eq_sum fun k l hk hl =>
    (hleft.size_eq hs k hk).trans (hright.size_eq hs l hl).symm
  rw [hadd]
  exact Run.Ensures.pure (hleft.sum hright) s hs

end Operator

/-- A tensor that returns an operator at every point. -/
theorem Tensor.operatorAt_eq {α σ : Type} [Numeral α] {n : Nat}
    {field : Array α → Run α σ (OperatorLike α σ)} {x : Vec α n}
    {run : Run α σ (Operator α σ)}
    (h : field x.toArray = run >>= fun op => pure (.operator op)) :
    (Tensor.varying field).operatorAt x = run := by
  rw [operatorAt, h, bind_assoc]
  exact bind_pure run

end Descent
