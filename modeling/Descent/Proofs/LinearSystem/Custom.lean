import Descent.LinearSystem.Custom
import Descent.Proofs.Exact.Operator
import Descent.Proofs.LinearSystem.Course

/-!
# Operators of the callers' own that keep lengths

An operator of the callers' own may return an array of any length. One that returns arrays of the
length that it was given, if it returns at all, is nothing new: the operator of the library that
wraps it has the same images, and so a solve with it is a solve with an operator of the library.

* `CustomOperator.KeepsLengths`: the callers' own parts of an operator keep lengths;
  `KeepsLengths.apply_keeps`: so does the operator. `KeepsLengths.add`: so do sums.
* `CustomOperator.wrapped`: the operator as one of the library; `KeepsLengths.wrapped_apply`.
* `CustomOperator.apply_of_misfit`: every operator refuses vectors that miss its size.
* `solveCustom_eq_solveLinear`: a solve with operators that keep lengths.
-/

namespace Descent

variable {α σ : Type} [Numeral α] {n : Nat}

/-! ## Arrays of one length -/

namespace Ray

theorem stretch_size (a : Array α) : stretch a.size a = a :=
  if_pos rfl

theorem entrywise_of_size {f : α → α → α} {a b : Array α} (h : b.size = a.size) :
    entrywise f a b = .ok (Array.zipWith f a b) := by
  have hb : stretch a.size b = b := if_pos h
  simp only [entrywise, commonLength, h, if_true, bind, Except.bind, stretch_size, hb]
  rfl

end Ray

namespace CustomOperator

/-! ## Lengths -/

/-- The callers' own parts of an operator return arrays of the length that they were given. -/
def KeepsLengths : CustomOperator α σ → Prop
  | library _ => True
  | own _ size? action => ∀ v : Array α, (∀ size, size? = some size → size = v.size) →
      (action v).Keeps Invariant.none fun image => image.size = v.size
  | sum left right => left.KeepsLengths ∧ right.KeepsLengths
  | scaled inner _ => inner.KeepsLengths

omit [Numeral α] in
/-- What passes the check of an operator has its size. -/
theorem fits_keeps (op : CustomOperator α σ) (n : Nat) :
    (op.fits n).Keeps Invariant.none fun _ => ∀ size, op.size? = some size → size = n := by
  unfold fits
  cases op.size? with
  | none => exact .pure nofun
  | some k =>
    refine .ite (fun heq => .pure fun size hsize => ?_) fun _ => .throw
    exact Option.some.inj hsize ▸ heq

/-- **An operator that keeps lengths returns an array of the length it was given**, or ends the
run. -/
theorem KeepsLengths.apply_keeps {op : CustomOperator α σ} (h : op.KeepsLengths) (v : Array α) :
    (op.apply v).Keeps Invariant.none fun image => image.size = v.size := by
  induction op with
  | library op => exact .bind (Run.keeps_none _) fun image _ => .pure image.size_toArray
  | own kind size? action => exact .bind (fits_keeps _ _) fun _ hfits => h v hfits
  | sum left right ihleft ihright =>
    refine .bind (Run.keeps_none _) fun _ _ => .bind (ihleft h.1) fun a ha => ?_
    refine .bind (ihright h.2) fun b hb => .ofExcept fun image himage => ?_
    rw [Ray.entrywise_of_size (hb.trans ha.symm)] at himage
    cases himage
    simp [ha, hb]
  | scaled inner factor ih =>
    refine .bind (Run.keeps_none _) fun _ _ => .bind (ih h) fun a ha => .pure ?_
    rwa [Array.size_map]

omit [Numeral α] in
/-- The sum of operators that keep lengths does so again, if it is not refused. -/
theorem KeepsLengths.add {left right op : CustomOperator α σ} (hleft : left.KeepsLengths)
    (hright : right.KeepsLengths) (h : left.add right = .ok op) : op.KeepsLengths := by
  have hsum : op = sum left right := by
    unfold CustomOperator.add at h
    split at h
    · split at h <;> cases h
      rfl
    · cases h
      rfl
  rw [hsum]
  exact ⟨hleft, hright⟩

/-- Every operator refuses a vector that misses its size. -/
theorem apply_of_misfit {op : CustomOperator α σ} {v : Array α} {size : Int}
    (hsize : op.size? = some size) (hne : size ≠ v.size) :
    op.apply v = throw (op.misfit v.size) := by
  have hfits : (op.fits v.size : Run α σ Unit) = throw (op.misfit v.size) := by
    unfold fits
    rw [hsize]
    exact if_neg hne
  cases op with
  | library op =>
    have hop : op.size? = some size := hsize
    rw [apply, Operator.apply_of_misfit hop hne]
    rfl
  | own | sum | scaled =>
    rw [apply, hfits]
    rfl

/-! ## Wrapped operators -/

/-- The operator as a wrapped map of the library. It takes vectors of any length and leaves it to
the map to refuse them. -/
def wrapped (op : CustomOperator α σ) : Operator α σ :=
  .function (fun v => do return .vector (← op.apply v)) none

/-- **An operator that keeps lengths acts as the operator of the library that wraps it.** -/
theorem KeepsLengths.wrapped_apply {op : CustomOperator α σ} (h : op.KeepsLengths) (v : Vec α n) :
    op.wrapped.apply v = op.actsOn n v := by
  refine Operator.apply_function_of_fits nofun ?_
  rw [actsOn, bind_assoc]
  refine Run.Keeps.bind_congr (h.apply_keeps v.toArray) fun image himage => ?_
  rw [v.size_toArray] at himage
  rw [dif_pos himage]
  rfl

end CustomOperator

/-! ## Solves -/

namespace LinearSystem

/-- An iteration ends a solve for a reason that it has found itself. -/
theorem step_exit (system : System α σ n) (tolerance : α) (s : State α n) :
    (step system tolerance s).Keeps Invariant.none fun r =>
      ∀ exit point residual, r = .last exit point residual → exit ≠ .atStart := by
  refine .bind (Run.keeps_none _) fun image _ => .ite (fun _ => .pure nofun) fun _ => ?_
  refine .ite (fun _ => .pure ?_) fun _ => .bind (Run.keeps_none _) fun smoothed _ =>
    .ite (fun _ => .pure ?_) fun _ => .bind (Run.keeps_none _) fun beta _ => .pure nofun
  · rintro _ _ _ ⟨⟩
    nofun
  · rintro _ _ _ ⟨⟩
    nofun

/-- A course without a completed iteration ends where it started, and there was something to do. -/
theorem course_stays (system : System α σ n) (tolerance : α) (budget : Nat) (s : State α n) :
    (course system tolerance budget s).Keeps Invariant.none fun c =>
      (c.heads = [] → c.point = s.point) ∧ c.exit ≠ .atStart := by
  induction budget generalizing s with
  | zero => exact .pure ⟨fun _ => rfl, nofun⟩
  | succ budget ih =>
    refine .bind (step_exit system tolerance s) fun r hr => ?_
    cases r with
    | refused => exact .pure ⟨fun _ => rfl, nofun⟩
    | last exit point residual => exact .pure ⟨nofun, hr exit point residual rfl⟩
    | next t => exact .bind (ih t) fun c hc => .pure ⟨nofun, hc.2⟩

/-- A solve that completes no iteration stays where it started, and there was something to do. -/
theorem iterate_stays (system : System α σ n) (tolerance : α) (budget : Nat) (s : State α n) :
    (iterate system tolerance budget 0 s).Keeps Invariant.none fun report =>
      (report.iterations = 0 → report.point = s.point) ∧ report.exit ≠ .atStart := by
  rw [iterate_eq_course, map_eq_pure_bind]
  refine .bind (course_stays system tolerance budget s) fun c hc => .pure ⟨fun hnone => ?_, hc.2⟩
  refine hc.1 (List.length_eq_zero_iff.1 ?_)
  rwa [Course.report, Nat.zero_add] at hnone

/-- The system of wrapped operators. -/
def wrappedSystem (A : CustomOperator α σ) (preconditioner : Option (CustomOperator α σ))
    (n : Nat) : System α σ n :=
  ⟨A.wrapped.apply, preconditioner.map fun op => op.wrapped.apply⟩

variable {A : CustomOperator α σ} {preconditioner : Option (CustomOperator α σ)}

theorem wrappedSystem_eq (hA : A.KeepsLengths)
    (hpreconditioner : ∀ op ∈ preconditioner, op.KeepsLengths) :
    wrappedSystem A preconditioner n =
      ⟨A.actsOn n, preconditioner.map fun op => op.actsOn n⟩ := by
  refine congrArg₂ System.mk (funext hA.wrapped_apply) ?_
  exact Option.map_congr fun op hop => funext (hpreconditioner op hop).wrapped_apply

/-- What is read besides the operators does not depend on them. -/
theorem Task.read_operator (op : Operator α σ) (smoother : Option (Operator α σ))
    (b guess maxIterations : Datum α) (options : Options α) :
    Task.read (.operator op) b guess options maxIterations (smoother.map .operator) =
      (fun task => { task with system := ⟨op.apply, smoother.map fun op => op.apply⟩ }) <$>
        Task.read (.operator (.zero : Operator α σ)) b guess options maxIterations none := by
  have hop (op : Operator α σ) : (OperatorLike.operator op).toOperator = .ok op := rfl
  have hsmoother : (smoother.map .operator).mapM OperatorLike.toOperator = .ok smoother := by
    cases smoother <;> rfl
  have hnone : (none : Option (OperatorLike α σ)).mapM OperatorLike.toOperator = .ok none := rfl
  simp only [Task.read, hop, hsmoother, hnone, map_bind]
  rfl

/-- A solve goes on after its first residual as a solve with the wrapped operators. -/
theorem runFrom_eq (hA : A.KeepsLengths)
    (hpreconditioner : ∀ op ∈ preconditioner, op.KeepsLengths) (residual guess : Vec α n)
    (tolerance : α) (budget : Nat) :
    runFrom A preconditioner residual.toArray guess.toArray tolerance budget = (do
      let system := wrappedSystem A preconditioner n
      let smoothed ← system.smooth residual
      let report ← iterate system tolerance budget 0
        ⟨guess, residual, smoothed, Vec.dot residual smoothed⟩
      Run.debug .linearSystem fun _ => report.line
      return report.point.toArray) := by
  obtain ⟨residual, rfl⟩ := residual
  have hstart : stretchGuess residual.size guess.toArray = guess :=
    Vector.toArray_inj.1 (if_pos guess.size_toArray)
  rw [runFrom, wrappedSystem_eq hA hpreconditioner, hstart]
  refine bind_congr fun smoothed => Run.Keeps.bind_congr (iterate_stays _ _ _ _) fun report h =>
    bind_congr fun _ => ?_
  by_cases hnone : report.iterations = 0
  · rw [if_pos hnone, h.1 hnone]
  · rw [if_neg hnone]

theorem runCustom_eq (hA : A.KeepsLengths)
    (hpreconditioner : ∀ op ∈ preconditioner, op.KeepsLengths) (b guess : Vec α n) (tolerance : α)
    (budget : Nat) :
    runCustom A preconditioner b guess tolerance budget = (do
      let report ← run (wrappedSystem A preconditioner n) b guess tolerance budget
      return report.point.toArray) := by
  have himage : A.wrapped.apply guess = A.actsOn n guess := hA.wrapped_apply guess
  simp only [runCustom, run, solve, wrappedSystem, himage, CustomOperator.actsOn, bind_assoc]
  refine Run.Keeps.bind_congr (hA.apply_keeps guess.toArray) fun image hsize => ?_
  rw [guess.size_toArray] at hsize
  have hresidual : Ray.entrywise (· - ·) b.toArray image =
      .ok (b - ⟨image, hsize⟩ : Vec α n).toArray :=
    Ray.entrywise_of_size (hsize.trans b.size_toArray.symm)
  rw [dif_pos hsize, hresidual, Run.ofExcept, pure_bind, pure_bind]
  generalize b - ⟨image, hsize⟩ = residual
  have hnorm : Vec.norm (Vec.ofArray residual.toArray) = Vec.norm residual := by
    obtain ⟨residual, rfl⟩ := residual
    rfl
  rw [hnorm]
  split
  · rfl
  · rw [runFrom_eq hA hpreconditioner, bind_assoc]
    refine bind_congr fun smoothed => ?_
    refine Run.Keeps.bind_congr (iterate_stays _ _ _ _) fun report h => ?_
    rw [if_pos h.2, bind_assoc]
    rfl

end LinearSystem

open LinearSystem in
/-- **A solve with operators that keep lengths is a solve with operators of the library**, namely
with those that wrap them. -/
theorem solveCustom_eq_solveLinear {A : CustomOperator α σ}
    {preconditioner : Option (CustomOperator α σ)} (hA : A.KeepsLengths)
    (hpreconditioner : ∀ op ∈ preconditioner, op.KeepsLengths) (b guess : Datum α)
    (options : Options α) (maxIterations : Datum α) :
    solveCustom A b guess options maxIterations preconditioner =
      solveLinear (.operator A.wrapped) b guess options maxIterations
        ((preconditioner.map CustomOperator.wrapped).map .operator) := by
  rw [solveCustom, solveLinear, Task.read_operator]
  cases Task.read (.operator (.zero : Operator α σ)) b guess options maxIterations none with
  | error fault => rfl
  | ok task =>
    have hsystem : (preconditioner.map CustomOperator.wrapped).map (fun op => op.apply) =
        preconditioner.map fun op => op.wrapped.apply (n := task.unknowns) :=
      Option.map_map ..
    have hrun := runCustom_eq hA hpreconditioner task.rhs task.guess task.tolerance task.budget
    rw [wrappedSystem, ← hsystem] at hrun
    exact hrun

end Descent
