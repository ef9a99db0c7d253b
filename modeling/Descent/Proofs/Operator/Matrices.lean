import Descent.Proofs.Operator.Meaning
import Mathlib.LinearAlgebra.Matrix.ToLin

/-!
# Operators as matrices

Over the reals an operator that was made of linear ones maps vectors of one length as a matrix does.

* `Honest`: the matrices that are kept are those of the entry functions; `table_yields`: so are those
  that are built;
* `Operator.Stands`: the matrix for which an operator stands, sums for sums and multiples for
  multiples; `Operator.Stands.applies`: vectors are multiplied by it;
* `Operator.expressions_coherent`: the sizes, the faults and the images of all operators that were
  made without a fault.
-/

namespace Descent

/-- The matrix of size `n` with given entries. -/
def Mat.ofEntries {α : Type} (n : Nat) (a : Nat → Nat → α) : Mat α n n :=
  Vector.ofFn fun i => Vector.ofFn fun j => a i j

/-- Every matrix that is kept has the entries that belong to its slot, and `J` holds of the callers'
state. -/
def Honest {α σ : Type} (value : Nat → Nat → Nat → α) (J : σ → Prop) : Invariant α σ :=
  fun tables caller =>
    (∀ slot, ∀ table ∈ tables.getD slot [], table.2 = Mat.ofEntries table.1 (value slot)) ∧ J caller

section

variable {α σ : Type} {value : Nat → Nat → Nat → α} {J : σ → Prop} {n slot : Nat}

theorem Table.mem_of_find? {tables : List (Table α)} {rows : Mat α n n}
    (h : Table.find? n tables = some rows) : ⟨n, rows⟩ ∈ tables := by
  induction tables with
  | nil => cases h
  | cons table rest ih =>
    obtain ⟨k, rows'⟩ := table
    unfold Table.find? at h
    split_ifs at h with hk
    · subst hk
      cases h
      exact List.mem_cons_self
    · exact List.mem_cons_of_mem _ (ih h)

/-- What is kept after one more matrix is. -/
theorem mem_getD_modify {tables : Array (List (Table α))} {table new : Table α} {k : Nat}
    (h : table ∈ (tables.modify slot (new :: ·)).getD k []) :
    k = slot ∧ table = new ∨ table ∈ tables.getD k [] := by
  simp only [Array.getD_eq_getD_getElem?, Array.getElem?_modify] at h ⊢
  split_ifs at h with hk
  · cases hold : tables[k]? with
    | none =>
      rw [hold] at h
      cases h
    | some old =>
      rw [hold] at h
      exact (List.mem_cons.1 h).imp (fun hnew => ⟨hk.symm, hnew⟩) id
  · exact .inr h

/-- The cached matrix of a length is the one of the entry function, and it may be kept. -/
theorem table_yields {entry : Nat → Nat → Run α σ α}
    (h : ∀ i < n, ∀ j < n, (entry i j).Yields (Honest value J) (value slot i j)) :
    (Run.table slot entry n).Yields (Honest value J) (Mat.ofEntries n (value slot)) := by
  have hbuild : (Run.buildTable entry n).Yields (Honest value J) (Mat.ofEntries n (value slot)) :=
    .ofFnM fun i => .ofFnM fun j => h i i.isLt j j.isLt
  refine Run.Triple.bind (R := fun session s => s.Has (Honest value J) ∧ session = s)
    (fun _ hs => ⟨hs, rfl⟩) fun session => ?_
  cases hfind : Table.find? n (session.tables.getD slot []) with
  | some rows =>
    rintro s ⟨hs, rfl⟩
    exact ⟨hs, hs.1 slot _ (Table.mem_of_find? hfind)⟩
  | none =>
    refine Run.Triple.bind (hbuild.conseq (fun _ hs => hs.1) (fun _ _ h => h) fun _ _ hf => hf)
      fun rows => ?_
    rintro s ⟨hs, rfl⟩
    refine ⟨⟨fun k table htable => ?_, hs.2⟩, rfl⟩
    obtain ⟨rfl, rfl⟩ | hold := mem_getD_modify htable
    · rfl
    · exact hs.1 k table hold

end

/-! ## Matrices of operators -/

namespace Vec

variable {n : Nat}

/-- A matrix times a vector. -/
def mulVec (M : Matrix (Fin n) (Fin n) ℝ) (v : Vec ℝ n) : Vec ℝ n :=
  Vector.ofFn (M.mulVec (entry v))

/-- The matrix of a linear map. -/
noncomputable def toMatrix (T : Vec ℝ n →ₗ[ℝ] Vec ℝ n) : Matrix (Fin n) (Fin n) ℝ :=
  LinearMap.toMatrix' ((entryEquiv n).conj T)

theorem entry_mulVec (M : Matrix (Fin n) (Fin n) ℝ) (v : Vec ℝ n) :
    entry (mulVec M v) = M.mulVec (entry v) := by
  funext i
  simp [entry, mulVec]

theorem mulVec_toMatrix (T : Vec ℝ n →ₗ[ℝ] Vec ℝ n) (v : Vec ℝ n) : mulVec (toMatrix T) v = T v := by
  refine entry_injective ?_
  rw [entry_mulVec, toMatrix, LinearMap.toMatrix'_mulVec, LinearEquiv.conj_apply_apply]
  exact congrArg (fun u => entry (T u)) ((entryEquiv n).symm_apply_apply v)

theorem mulVec_zero_matrix (v : Vec ℝ n) : mulVec 0 v = zeros n := by
  refine entry_injective ?_
  rw [entry_mulVec, Matrix.zero_mulVec]
  funext i
  simp [entry, zeros]

theorem mulVec_one (v : Vec ℝ n) : mulVec 1 v = v :=
  entry_injective (by rw [entry_mulVec, Matrix.one_mulVec])

theorem mulVec_diagonal (d v : Vec ℝ n) : mulVec (Matrix.diagonal (entry d)) v = times d v := by
  refine entry_injective (funext fun i => ?_)
  rw [entry_mulVec, Matrix.mulVec_diagonal]
  exact (getElem_times d v i).symm

theorem get_eq_getElem {α : Type} (v : Vec α n) (i : Fin n) : v.get i = getElem v i.val i.isLt :=
  rfl

theorem mulVec_of_rows (rows : Mat ℝ n n) (v : Vec ℝ n) :
    mulVec (Matrix.of fun i => entry (rows.get i)) v = Mat.apply rows v := by
  refine entry_injective (funext fun i => ?_)
  rw [entry_mulVec]
  simp [Matrix.mulVec, dotProduct, entry, Mat.apply, dot_eq_sum, get_eq_getElem]

theorem mulVec_add (A B : Matrix (Fin n) (Fin n) ℝ) (v : Vec ℝ n) :
    mulVec (A + B) v = mulVec A v + mulVec B v := by
  refine entry_injective (funext fun i => ?_)
  rw [entry_mulVec, Matrix.add_mulVec]
  simp [entry, mulVec]

theorem mulVec_smul (c : ℝ) (A : Matrix (Fin n) (Fin n) ℝ) (v : Vec ℝ n) :
    mulVec (c • A) v = c • mulVec A v := by
  refine entry_injective (funext fun i => ?_)
  rw [entry_mulVec, Matrix.smul_mulVec]
  simp [entry, mulVec, ← hmul_eq_smul]

end Vec

namespace Operator

variable {σ : Type} [RealText] {value : Nat → Nat → Nat → ℝ} {J : σ → Prop} {n : Nat}

/-- The function always returns the image of the vector under a linear map. -/
def Follows (I : Invariant ℝ σ) (map : VectorField ℝ σ) (T : Vec ℝ n →ₗ[ℝ] Vec ℝ n) : Prop :=
  ∀ v : Vec ℝ n, ∃ d, (map v.toArray).Yields I d ∧
    d.toVector "operator output" = .ok (T v).toArray

/-- The entry function always returns the entries `a` of the matrix of size `n`. -/
def Lists (I : Invariant ℝ σ) (n : Nat) (entry : Nat → Nat → Run ℝ σ ℝ) (a : Nat → Nat → ℝ) : Prop :=
  ∀ i < n, ∀ j < n, (entry i j).Yields I (a i j)

/-- The matrix for which an operator made of linear ones stands. -/
inductive Stands (value : Nat → Nat → Nat → ℝ) (J : σ → Prop) {n : Nat} :
    Operator ℝ σ → Matrix (Fin n) (Fin n) ℝ → Prop
  | zero : Stands value J zero 0
  | identity : Stands value J identity 1
  | diagonal (d : Vec ℝ n) : Stands value J (diagonal d.toArray) (Matrix.diagonal (Vec.entry d))
  | matrix (rows : Mat ℝ n n) :
      Stands value J (matrix n rows) (Matrix.of fun i => Vec.entry (rows.get i))
  | entries {slot : Nat} {entry : Nat → Nat → Run ℝ σ ℝ}
      (h : Lists (Honest value J) n entry (value slot)) :
      Stands value J (entries slot entry) (Matrix.of fun i j => value slot i j)
  | function {map : VectorField ℝ σ} {size? : Option Int} {T : Vec ℝ n →ₗ[ℝ] Vec ℝ n}
      (hfits : (function map size?).Fits n) (h : Follows (Honest value J) map T) :
      Stands value J (function map size?) (Vec.toMatrix T)
  | sum {left right : Operator ℝ σ} {A B : Matrix (Fin n) (Fin n) ℝ} (hleft : Stands value J left A)
      (hright : Stands value J right B) : Stands value J (sum left right) (A + B)
  | scaled {inner : Operator ℝ σ} {A : Matrix (Fin n) (Fin n) ℝ} (h : Stands value J inner A)
      (factor : ℝ) : Stands value J (scaled inner factor) (factor • A)

/-- **An operator multiplies vectors by its matrix.** -/
theorem Stands.applies {op : Operator ℝ σ} {M : Matrix (Fin n) (Fin n) ℝ} (h : op.Stands value J M) :
    op.Applies (Honest value J) (Vec.mulVec M) := by
  induction h with
  | zero =>
    intro v
    rw [Vec.mulVec_zero_matrix]
    exact .pure
  | identity =>
    intro v
    rw [Vec.mulVec_one]
    exact .pure
  | diagonal d =>
    intro v
    rw [Vec.mulVec_diagonal, apply, dif_pos d.size_toArray]
    exact .pure
  | matrix rows =>
    intro v
    rw [Vec.mulVec_of_rows, apply, dif_pos rfl]
    exact .pure
  | @entries slot entry h =>
    intro v
    have hrows : (Matrix.of fun i j => value slot i j : Matrix (Fin n) (Fin n) ℝ) =
        Matrix.of fun i => Vec.entry ((Mat.ofEntries n (value slot)).get i) := by
      ext i j
      simp [Mat.ofEntries, Vec.entry, Vec.get_eq_getElem]
    rw [hrows, Vec.mulVec_of_rows, apply]
    exact (table_yields h).bind .pure
  | @function map size? T hfits h =>
    intro v
    obtain ⟨d, hd, hread⟩ := h v
    rw [Vec.mulVec_toMatrix, apply, fits_eq_pure hfits, pure_bind]
    refine hd.bind ((Run.Yields.ofExcept hread).bind ?_)
    rw [dif_pos (T v).size_toArray]
    exact .pure
  | sum hleft hright ihleft ihright =>
    intro v
    rw [Vec.mulVec_add]
    exact ihleft.sum ihright v
  | scaled h factor ih =>
    intro v
    rw [Vec.mulVec_smul]
    exact ih.scaled factor v

/-- A leaf that is linear between vectors of length `n`. -/
def IsLinear (value : Nat → Nat → Nat → ℝ) (J : σ → Prop) (n : Nat) : Operator ℝ σ → Prop
  | entries slot entry => Lists (Honest value J) n entry (value slot)
  | function map _ => ∃ T : Vec ℝ n →ₗ[ℝ] Vec ℝ n, Follows (Honest value J) map T
  | _ => True

/-- **An operator made of linear ones stands for a matrix.** -/
theorem Formed.exists_stands {op : Operator ℝ σ} (h : op.Formed) (hfits : op.Fits n)
    (hleaves : ∀ leaf ∈ op.leaves, leaf.IsLinear value J n) :
    ∃ M : Matrix (Fin n) (Fin n) ℝ, op.Stands value J M := by
  induction h with
  | zero => exact ⟨0, .zero⟩
  | identity => exact ⟨1, .identity⟩
  | diagonal factors =>
    obtain rfl : factors.size = n := Int.ofNat_inj.1 (hfits _ rfl)
    exact ⟨_, .diagonal (Vec.ofArray factors)⟩
  | matrix k rows =>
    obtain rfl : k = n := Int.ofNat_inj.1 (hfits _ rfl)
    exact ⟨_, .matrix rows⟩
  | entries slot entry => exact ⟨_, .entries (hleaves _ (List.mem_singleton_self _))⟩
  | function map size? =>
    obtain ⟨T, hT⟩ := hleaves _ (List.mem_singleton_self _)
    exact ⟨_, .function hfits hT⟩
  | sum hleft hright hadd ihleft ihright =>
    obtain ⟨rfl, hsizes⟩ := of_add_eq_ok hadd
    obtain ⟨hl, hr⟩ := hfits.of_sum hsizes
    obtain ⟨A, hA⟩ := ihleft hl fun leaf h => hleaves leaf (List.mem_append_left _ h)
    obtain ⟨B, hB⟩ := ihright hr fun leaf h => hleaves leaf (List.mem_append_right _ h)
    exact ⟨A + B, hA.sum hB⟩
  | scaled hinner factor ih =>
    obtain ⟨A, hA⟩ := ih hfits hleaves
    exact ⟨factor • A, hA.scaled factor⟩

end Operator

/-! ## All operators -/

open Operator

/-- **The size and the meaning of operators.** An operator that was made without a fault has the size
of each leaf that has one. It cannot be added to an operator of another size. It refuses vectors of
another length at once; any other vector it maps to what it means, to one of the same length, unless
a leaf's function ends in a fault or returns what is no such vector. Over the reals, if the leaves
are linear, it multiplies vectors by a matrix: sums by the sum of the matrices, multiples by the
multiple. -/
theorem expressions_coherent {α σ : Type} [Numeral α] {op : Operator α σ} (h : op.Formed) :
    (∀ k, op.size? = some k ↔ ∃ leaf ∈ op.leaves, leaf.size? = some k) ∧
    (∀ k, op.size? = some k → ∀ leaf ∈ op.leaves, ∀ l, leaf.size? = some l → l = k) ∧
    (∀ other : Operator α σ, other.Formed → ∀ fault, op.add other = .error fault ↔
      ∃ k l, op.size? = some k ∧ other.size? = some l ∧ k ≠ l ∧ fault = .summands k l) ∧
    (∀ {n : Nat} (v : Vec α n),
      (∀ k, op.size? = some k → k ≠ n →
        ∀ s, (op.apply v).run s = .error (.operand op.kindText k n) s) ∧
      ((∀ k, op.size? = some k → k = n) → op.apply v = op.meaning v ∧
        (op.apply v).Blames (fun fault s' => ∃ leaf ∈ op.leaves, leaf.Raises v fault s') ∧
        ∀ image, (op.apply v).Gives image → image.toArray.size = n)) ∧
    ∀ [RealText] {τ : Type} (value : Nat → Nat → Nat → ℝ) (J : τ → Prop) {n : Nat}
      {real : Operator ℝ τ}, real.Formed → (∀ k, real.size? = some k → k = n) →
      (∀ leaf ∈ real.leaves, leaf.IsLinear value J n) →
      ∃ M : Matrix (Fin n) (Fin n) ℝ, real.Stands value J M ∧
        ∀ v, (real.apply v).Yields (Honest value J) (Vec.mulVec M v) := by
  refine ⟨fun k => h.size?_eq_some_iff, fun k hk leaf hleaf l hl => ?_,
    fun other _ fault => add_eq_error_iff, fun {n} v => ⟨fun k hk hne s => ?_, fun hfits => ?_⟩, ?_⟩
  · rw [h.size?_eq_some_iff.2 ⟨leaf, hleaf, hl⟩] at hk
    exact Option.some.inj hk
  · rw [apply_of_misfit hk hne, misfit, hk]
    rfl
  · have happly := h.apply_eq_meaning hfits v
    rw [happly]
    exact ⟨rfl, meaning_blames op v, fun image _ => image.size_toArray⟩
  · intro _ τ value J n real hreal hfits hleaves
    obtain ⟨M, hM⟩ := hreal.exists_stands hfits hleaves
    exact ⟨M, hM, hM.applies⟩

/-- A multiple of a diagonal operator of size 2, with the identity and a function added. -/
def mixedOperator : Operator ℝ Unit :=
  .sum (.sum (.scaled (.diagonal #[1, -1]) (-1)) .identity)
    (.function (fun v => return .vector (v.map (-1 * ·))) none)

theorem expressions_coherent_mixed :
    letI := RealText.mute
    mixedOperator.size? = some 2 ∧
    mixedOperator.add (.diagonal #[1, 1, 1]) = .error (.summands 2 3) ∧
    (∀ s, (mixedOperator.apply #v[1, 1, 1]).run s = .error (.operand "SumOperator" 2 3) s) ∧
    mixedOperator.apply #v[1, 1] = mixedOperator.meaning #v[1, 1] ∧
    ∃ M : Matrix (Fin 2) (Fin 2) ℝ, mixedOperator.Stands (fun _ _ _ => 0) (fun _ => True) M ∧
      (mixedOperator.apply #v[1, 1]).Yields (Honest (fun _ _ _ => 0) fun _ => True)
        (Vec.mulVec M #v[1, 1]) := by
  let _ := RealText.mute
  have hformed : mixedOperator.Formed :=
    .sum (.sum (.scaled (.diagonal #[1, -1]) (-1)) .identity rfl) (.function _ none) rfl
  have hsize : mixedOperator.size? = some 2 := rfl
  have hfits (k : Int) (hk : mixedOperator.size? = some k) : k = (2 : Nat) :=
    (Option.some.inj (hsize.symm.trans hk)).symm
  have hopposite : Follows (Honest (fun _ _ _ => 0) fun _ => True)
      (fun v => return .vector (v.map (-1 * ·)) : VectorField ℝ Unit)
      ((-1 : ℝ) • LinearMap.id : Vec ℝ 2 →ₗ[ℝ] Vec ℝ 2) := by
    refine fun v => ⟨_, .pure, ?_⟩
    rw [LinearMap.smul_apply, LinearMap.id_apply, ← Vec.hmul_eq_smul]
    rfl
  have hlinear : ∀ leaf ∈ mixedOperator.leaves,
      leaf.IsLinear (fun _ _ _ => 0) (fun _ => True) 2 := by
    intro leaf hleaf
    simp only [mixedOperator, leaves, List.mem_append, List.mem_singleton] at hleaf
    rcases hleaf with (rfl | rfl) | rfl
    · trivial
    · trivial
    · exact ⟨_, hopposite⟩
  obtain ⟨-, -, hadd, happly, hreal⟩ := expressions_coherent hformed
  obtain ⟨M, hM, himage⟩ := hreal (fun _ _ _ => 0) (fun _ => True) hformed hfits hlinear
  exact ⟨hsize, (hadd _ (.diagonal _) _).2 ⟨2, 3, hsize, rfl, by decide, rfl⟩,
    (happly #v[1, 1, 1]).1 2 hsize (by decide), ((happly #v[1, 1]).2 hfits).1, M, hM, himage _⟩

end Descent
