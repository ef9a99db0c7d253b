import Descent.Proofs.Exact.Operator

/-!
# The size and the meaning of operators

Callers make operators of others by adding and scaling. Some of the operators they start from insist
on a size, and the others adapt to any. Every operator checks the length of each vector it is given,
but once the outermost check has passed no other can fail, so a sum does what its summands do.

* `Operator.Formed`: operators that were made without a fault; `Operator.leaves`: what they were
  made of;
* `Operator.Formed.size?_eq_some_iff`: the size is that of all leaves that have one;
* `Operator.meaning`: the image of a vector with no lengths compared;
  `Operator.Formed.apply_eq_meaning`: this is what a vector of the right length is mapped to;
* `Operator.meaning_blames`: the only faults left are those of functions and of what they return.
-/

namespace Descent

namespace Run

variable {α σ β γ : Type}

/-- Whatever the session, a run that ends in a fault leaves a session such that `E` holds. -/
def Blames (run : Run α σ β) (E : Fault → Session α σ → Prop) : Prop :=
  Triple (fun _ => True) run (fun _ _ => True) E

namespace Blames

variable {run : Run α σ β} {E E' : Fault → Session α σ → Prop}

theorem pure {b : β} : Blames (pure b) E :=
  Triple.pure fun _ _ => trivial

theorem bind {next : β → Run α σ γ} (h : run.Blames E) (hnext : ∀ b, (next b).Blames E) :
    (run >>= next).Blames E :=
  Triple.bind h hnext

theorem mono (h : run.Blames E) (hE : ∀ fault s, E fault s → E' fault s) : run.Blames E' :=
  h.conseq (fun _ hs => hs) (fun _ _ hb => hb) hE

theorem ofFnM {n : Nat} {f : Fin n → Run α σ β} (h : ∀ i, (f i).Blames E) :
    Blames (Vector.ofFnM f) E := by
  refine (Triple.ofFnM (Q := fun _ _ => True) fun i => ?_).conseq (fun _ hs => hs)
    (fun _ _ _ => trivial) fun _ _ hf => hf
  exact (h i).conseq (fun _ hs => hs) (fun _ _ _ => ⟨trivial, trivial⟩) fun _ _ hf => hf

/-- A run is to blame for its own faults. -/
theorem self (run : Run α σ β) : run.Blames fun fault s' => ∃ s, run.run s = .error fault s' := by
  intro s _
  cases hr : run.run s with
  | ok b s' => trivial
  | error fault s' => exact ⟨s, hr⟩

end Blames

end Run

/-- An entry of a matrix; what lies outside is zero. -/
def Mat.entryOrZero {α : Type} [Scalar α] {k : Nat} (rows : Mat α k k) (i j : Nat) : α :=
  if h : i < k ∧ j < k then rows[i][j] else 0

namespace Operator

section

variable {α σ : Type} {op left right : Operator α σ}

/-! ## Sizes -/

/-- Operators that were made by adding and scaling, without a fault. -/
inductive Formed : Operator α σ → Prop
  | zero : Formed zero
  | identity : Formed identity
  | diagonal (factors : Array α) : Formed (diagonal factors)
  | matrix (n : Nat) (rows : Mat α n n) : Formed (matrix n rows)
  | entries (slot : Nat) (entry : Nat → Nat → Run α σ α) : Formed (entries slot entry)
  | function (map : VectorField α σ) (size? : Option Int) : Formed (function map size?)
  | sum {left right op : Operator α σ} (hleft : Formed left) (hright : Formed right)
      (h : left.add right = .ok op) : Formed op
  | scaled {inner : Operator α σ} (h : Formed inner) (factor : α) : Formed (scaled inner factor)

/-- What an operator was made of. -/
def leaves : Operator α σ → List (Operator α σ)
  | sum left right => left.leaves ++ right.leaves
  | scaled inner _ => inner.leaves
  | op => [op]

/-- A sum is refused if both summands have a size, not the same. -/
theorem add_eq_error_iff {fault : Fault} : left.add right = .error fault ↔
    ∃ k l, left.size? = some k ∧ right.size? = some l ∧ k ≠ l ∧ fault = .summands k l := by
  unfold add
  constructor
  · intro h
    split at h
    · rename_i k l hleft hright
      split_ifs at h with hne
      cases h
      exact ⟨k, l, hleft, hright, hne, rfl⟩
    · cases h
  · rintro ⟨k, l, hleft, hright, hne, rfl⟩
    exact add_eq_error hleft hright hne

/-- What a sum is that was not refused. -/
theorem of_add_eq_ok (h : left.add right = .ok op) :
    op = sum left right ∧ ∀ k l, left.size? = some k → right.size? = some l → k = l := by
  unfold add at h
  split at h
  · rename_i k l hleft hright
    split_ifs at h with heq
    cases h
    refine ⟨rfl, fun k' l' hk hl => ?_⟩
    rw [hleft] at hk
    rw [hright] at hl
    cases hk
    cases hl
    exact heq
  · rename_i hnone
    cases h
    exact ⟨rfl, fun k l hk hl => absurd hl (hnone k l hk)⟩

/-- A sum has the size of each summand that has one. -/
theorem size?_sum_eq_some_iff {k : Int}
    (hsizes : ∀ k l, left.size? = some k → right.size? = some l → k = l) :
    (sum left right).size? = some k ↔ left.size? = some k ∨ right.size? = some k := by
  refine ⟨size?_sum, fun h => ?_⟩
  unfold size?
  cases hleft : left.size? with
  | none =>
    rw [hleft] at h
    exact h.resolve_left (Option.some_ne_none k).symm
  | some l =>
    refine h.elim (fun hk => hleft.symm.trans hk) fun hk => ?_
    rw [hsizes l k hleft hk]
    rfl

/-- **An operator has the size of each leaf that has one.** -/
theorem Formed.size?_eq_some_iff (h : op.Formed) {k : Int} :
    op.size? = some k ↔ ∃ leaf ∈ op.leaves, leaf.size? = some k := by
  induction h with
  | zero | identity | diagonal | matrix | entries | function => simp [leaves]
  | sum hleft hright hadd ihleft ihright =>
    obtain ⟨rfl, hsizes⟩ := of_add_eq_ok hadd
    rw [size?_sum_eq_some_iff hsizes, ihleft, ihright, leaves]
    simp only [List.mem_append, or_and_right, exists_or]
  | scaled hinner factor ih => exact ih

/-! ## Meanings -/

/-- The operator insists on no length other than `n`. -/
def Fits (op : Operator α σ) (n : Nat) : Prop :=
  ∀ k, op.size? = some k → k = n

/-- The summands of a sum fit wherever the sum does. -/
theorem Fits.of_sum {n : Nat} (hfits : (sum left right).Fits n)
    (hsizes : ∀ k l, left.size? = some k → right.size? = some l → k = l) :
    left.Fits n ∧ right.Fits n :=
  ⟨fun _ hk => hfits _ ((size?_sum_eq_some_iff hsizes).2 (.inl hk)),
    fun _ hk => hfits _ ((size?_sum_eq_some_iff hsizes).2 (.inr hk))⟩

variable [Numeral α] {n : Nat}

/-- A vector of length `n` from what a function returns. -/
def readImage (n : Nat) (d : Datum α) : Except Fault (Vec α n) := do
  let image ← d.toVector "operator output"
  if h : image.size = n then return ⟨image, h⟩ else throw (.image image.size n)

/-- What an operator maps a vector to, if no sizes are compared: factors and entries that are missing
are zero. -/
def meaning : Operator α σ → Vec α n → Run α σ (Vec α n)
  | zero, _ => return Vec.zeros n
  | identity, v => return v
  | diagonal factors, v => return Vec.times (Vector.ofFn fun i => factors.getD i 0) v
  | matrix _ rows, v =>
    return Mat.apply (Vector.ofFn fun i => Vector.ofFn fun j => rows.entryOrZero i j) v
  | entries slot entry, v => return Mat.apply (← Run.table slot entry n) v
  | function map _, v => do Run.ofExcept (readImage n (← map v.toArray))
  | sum left right, v => return (← left.meaning v) + (← right.meaning v)
  | scaled inner factor, v => return factor * (← inner.meaning v)

theorem apply_diagonal {factors : Array α} (h : factors.size = n) (v : Vec α n) :
    (diagonal factors : Operator α σ).apply v = (diagonal factors).meaning v := by
  subst h
  have hfactors : Vector.ofFn (fun i : Fin factors.size => factors.getD i 0) =
      (⟨factors, rfl⟩ : Vec α factors.size) := by
    ext i hi
    simp [Array.getD]
  rw [apply, dif_pos rfl, meaning, hfactors]

theorem apply_matrix {k : Nat} (h : k = n) (rows : Mat α k k) (v : Vec α n) :
    (matrix k rows : Operator α σ).apply v = (matrix k rows).meaning v := by
  subst h
  have hrows : (Vector.ofFn fun i : Fin k => Vector.ofFn fun j : Fin k =>
      rows.entryOrZero i j) = rows := by
    ext i hi j hj
    simp [Mat.entryOrZero]
  rw [apply, dif_pos rfl, meaning, hrows]

theorem apply_function_eq {map : VectorField α σ} {size? : Option Int}
    (h : (function map size?).Fits n) (v : Vec α n) :
    (function map size?).apply v = (function map size?).meaning v := by
  rw [apply, fits_eq_pure h, pure_bind, meaning]
  refine bind_congr fun d => ?_
  rw [readImage, Run.ofExcept_bind]
  refine bind_congr fun image => ?_
  split <;> rfl

/-- **An operator maps a vector of the right length to what it means.** No check that follows the
first one can fail. -/
theorem Formed.apply_eq_meaning (h : op.Formed) (hfits : op.Fits n) (v : Vec α n) :
    op.apply v = op.meaning v := by
  induction h with
  | zero | identity | entries => rfl
  | diagonal factors => exact apply_diagonal (Int.ofNat_inj.1 (hfits _ rfl)) v
  | matrix k rows => exact apply_matrix (Int.ofNat_inj.1 (hfits _ rfl)) rows v
  | function map size? => exact apply_function_eq hfits v
  | sum hleft hright hadd ihleft ihright =>
    obtain ⟨rfl, hsizes⟩ := of_add_eq_ok hadd
    obtain ⟨hleft, hright⟩ := hfits.of_sum hsizes
    rw [apply, fits_eq_pure hfits, pure_bind, meaning, ihleft hleft, ihright hright]
  | scaled hinner factor ih => rw [apply, fits_eq_pure hfits, pure_bind, meaning, ih hfits]

/-! ## Faults -/

/-- A function of the leaf ends in the fault, or it returns what is no vector of the right length. -/
def Raises (v : Vec α n) (fault : Fault) (s' : Session α σ) : Operator α σ → Prop
  | entries _ entry => ∃ i < n, ∃ j < n, ∃ s, (entry i j).run s = .error fault s'
  | function map _ => ∃ s, (map v.toArray).run s = .error fault s' ∨
      ∃ d, (map v.toArray).run s = .ok d s' ∧ readImage n d = .error fault
  | _ => False

omit [Numeral α] in
/-- A matrix that is kept is no source of faults. -/
theorem table_blames (slot : Nat) (entry : Nat → Nat → Run α σ α) (n : Nat) :
    (Run.table slot entry n).Blames fun fault s' =>
      ∃ i < n, ∃ j < n, ∃ s, (entry i j).run s = .error fault s' := by
  refine .bind (show Run.Blames get _ from fun _ _ => trivial) fun session => ?_
  split
  · exact .pure
  · refine .bind (.ofFnM fun i => .ofFnM fun j => ?_) fun rows =>
      .bind (fun _ _ => trivial) fun _ => .pure
    exact (Run.Blames.self (entry i j)).mono fun _ _ h => ⟨i, i.isLt, j, j.isLt, h⟩

theorem function_blames (map : VectorField α σ) (size? : Option Int) (v : Vec α n) :
    ((function map size?).meaning v).Blames fun fault s' =>
      (function map size?).Raises v fault s' := by
  intro s _
  rw [meaning, EStateM.run_bind]
  cases hr : (map v.toArray).run s with
  | error fault s' => exact ⟨s, .inl hr⟩
  | ok d s' =>
    dsimp only
    cases hread : readImage n d with
    | ok image => trivial
    | error fault => exact ⟨s, .inr ⟨d, hr, hread⟩⟩

/-- **The only faults left are those of functions and of what they return.** -/
theorem meaning_blames (op : Operator α σ) (v : Vec α n) :
    (op.meaning v).Blames fun fault s' => ∃ leaf ∈ op.leaves, leaf.Raises v fault s' := by
  induction op with
  | zero | identity | diagonal | matrix => exact .pure
  | entries slot entry =>
    refine .bind ((table_blames slot entry n).mono fun fault s' h => ?_) fun rows => .pure
    exact ⟨_, List.mem_singleton_self _, h⟩
  | function map size? =>
    exact (function_blames map size? v).mono fun _ _ h => ⟨_, List.mem_singleton_self _, h⟩
  | sum left right ihleft ihright =>
    refine .bind (ihleft.mono ?_) fun a => .bind (ihright.mono ?_) fun b => .pure
    · rintro fault s' ⟨leaf, hmem, h⟩
      exact ⟨leaf, List.mem_append_left _ hmem, h⟩
    · rintro fault s' ⟨leaf, hmem, h⟩
      exact ⟨leaf, List.mem_append_right _ hmem, h⟩
  | scaled inner factor ih => exact .bind ih fun image => .pure

end

end Operator

end Descent
