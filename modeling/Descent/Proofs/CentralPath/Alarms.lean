import Descent.Proofs.CentralPath.Comparison
import Descent.Proofs.LinearSystem.Custom
import Descent.Proofs.Minimize.Alarms
import Descent.Scalar.Double

/-!
# Lengths along central paths

Constraints, barriers and preconditioners with alarms for vectors of a length that does not belong
there. Alarms change neither a constrained minimization nor a Jacobi preconditioner, unless it ends
in a fault of dimensions.

* `Barrier.alarmed`, `CentralPath.Preconditioner.alarmed`, `Jacobi.Parts.alarmed`;
* `Jacobi.operatorAt_quiet`, `minimizeConjugateConstrained_quiet`,
  `minimizeNewtonConstrained_quiet`;
* `lengths_agree`: what holds of every part of the library;
* `lengths_disagree`: an operator of the callers' own that does not keep lengths, and a guess that
  is refused before its entries are counted.
-/

namespace Descent

open Comparison (measured same_self)
open Operator.Loosened (likeness)

variable {α σ : Type} [Numeral α]

/-! ## Barriers -/

/-- The derivatives of all constraints with an alarm. -/
def Family.alarmed (alarm : Fault) (f : Family α σ) : Family α σ where
  count := f.count
  value := f.value
  gradient i := (f.gradient i).alarmed alarm
  hessian := f.hessian.map fun hessian i => (hessian i).alarmed alarm
  hessianDiagonal := f.hessianDiagonal.map fun diagonal i => (diagonal i).alarmed alarm

/-- The derivatives of a barrier in closed form with an alarm. The multipliers may have any
length. -/
def ClosedForm.alarmed (alarm : Fault) (b : ClosedForm α σ) : ClosedForm α σ where
  value := b.value
  gradient := b.gradient.alarmed alarm
  multipliers := b.multipliers
  outside := b.outside
  hessian := b.hessian.map (·.alarmed alarm)

def Barrier.alarmed (alarm : Fault) : Barrier α σ → Barrier α σ
  | family f => family (f.alarmed alarm)
  | closedForm b => closedForm (b.alarmed alarm)

/-- The preconditioners of all scales with an alarm. -/
def CentralPath.Preconditioner.alarmed (alarm : Fault) (p : Preconditioner α σ) :
    Preconditioner α σ := fun t => do
  let tensor ← p t
  return tensor.alarmed alarm

theorem Family.alarmed_compare (alarm : Fault) (f : Family α σ) (S : Array α → Prop) :
    f.Compare likeness S (f.alarmed alarm) := by
  have hhessian (hessian : Nat → Tensor α σ) (i : Nat) :
      (hessian i).CompareBy likeness S ((hessian i).alarmed alarm) :=
    (hessian i).alarmed_compare alarm S
  exact
    { count := rfl
      value := fun i x => same_self (f.value i x)
      gradient := fun i => (f.gradient i).alarmed_compare alarm S
      hessian := Option.rel_map hhessian f.hessian }

theorem Barrier.alarmed_compare (alarm : Fault) (barrier : Barrier α σ) (name : String)
    (d : Datum α) : barrier.Compare likeness (d.Matches name) (barrier.alarmed alarm) := by
  cases barrier with
  | family f =>
    have hf := f.alarmed_compare alarm (d.Matches name)
    refine Family.barrier_compare hf fun x y hx hy => ?_
    refine (Family.violatedFrom_compares hf (Vec.ofArray y) _ _).mono fun _ _ hout => ?_
    exact ⟨hout, fun _ v hv => hy.trans (hx v hv)⟩
  | closedForm b =>
    exact ClosedForm.barrier_compare
      { value := Run.compareOn_self _ b.value
        gradient := b.gradient.alarmed_compare alarm _
        multipliers := fun t => Run.compareOn_self _ (b.multipliers t)
        outside := b.outside.compare_self name d
        hessian := Option.rel_map (fun tensor => tensor.alarmed_compare alarm _) b.hessian }

theorem CentralPath.Preconditioner.alarmed_compare (alarm : Fault) (p : Preconditioner α σ)
    (S : Array α → Prop) : p.CompareBy likeness S (p.alarmed alarm) := by
  intro t
  have hp : measured.Compares (Tensor.CompareBy likeness S) (p t >>= Pure.pure)
      (p.alarmed alarm t) := by
    refine .bind (same_self _) ?_
    rintro tensor _ rfl
    exact .pure (tensor.alarmed_compare alarm S)
  rwa [bind_pure] at hp

/-! ## Jacobi preconditioners -/

namespace Jacobi

/-- The derivatives that the diagonal is made of with an alarm. -/
def Parts.alarmed (alarm : Fault) (parts : Parts α σ) : Parts α σ where
  value := parts.value
  gradient i := (parts.gradient i).alarmed alarm
  hessianDiagonal := parts.hessianDiagonal.map fun diagonal i => (diagonal i).alarmed alarm

variable {n : Nat}

theorem addConstraints_compares (alarm : Fault) (parts : Parts α σ) (x : Vec α n) :
    ∀ left i (sum : Vec α n), measured.Compares Eq (addConstraints parts x left i sum)
      (addConstraints (parts.alarmed alarm) x left i sum) := by
  intro left
  induction left with
  | zero => exact fun i sum => .pure rfl
  | succ left ih =>
    intro i sum
    obtain ⟨value, gradient, diagonal⟩ := parts
    refine .bind (same_self _) ?_
    rintro c _ rfl
    refine .bind ((gradient i).alarmed_compare alarm (fun _ => True) _ x trivial) ?_
    rintro g _ rfl
    cases diagonal with
    | none => exact ih (i + 1) _
    | some diagonal =>
      refine .bind ((diagonal i).alarmed_compare alarm (fun _ => True) _ x trivial) ?_
      rintro d _ rfl
      exact ih (i + 1) _

/-- **Alarms do not change a Jacobi preconditioner**, which has the size of its point. -/
theorem operatorAt_quiet (parts : Parts α σ) (count : Number α) (objective : VectorField α σ)
    (t : α) (x : Vec α n) :
    (operatorAt parts count objective t x).Quiet
      (fun alarm => operatorAt (parts.alarmed alarm) count (objective.alarmed alarm) t x)
      fun op => op.size? = some (n : Int) := by
  refine Comparison.Compares.quiet fun alarm => ?_
  refine .bind (objective.alarmed_compare alarm (fun _ => True) _ x trivial) ?_
  rintro d _ rfl
  refine .check fun count _ => .bind (addConstraints_compares alarm parts x count 0 _) ?_
  rintro b _ rfl
  refine .pure ⟨rfl, ?_⟩
  simp [inverse, Operator.size?]

end Jacobi

/-! ## Constrained minimization -/

open CentralPath

theorem minimizeConjugateConstrained_quiet (value : Option (ScalarField α σ))
    (gradient : VectorField α σ) (start : Datum α) (barrier : Barrier α σ)
    (path : CentralPath.Options α) (options : Conjugate.Options α σ)
    (preconditioner : Option (Preconditioner α σ)) :
    (minimizeConjugateConstrained value gradient start barrier path options preconditioner).Quiet
      (fun alarm => minimizeConjugateConstrained value (gradient.alarmed alarm) start
        (barrier.alarmed alarm) path options (preconditioner.map (·.alarmed alarm)))
      fun certificate => start.Matches "w0" certificate.optimum := by
  refine Comparison.Compares.quiet fun alarm => ?_
  exact minimizeConjugateConstrained_compares (fun w hw => Datum.matches_of_read hw)
    (Option.rel_self fun f _ => Run.compareOn_self _ f) (gradient.alarmed_compare alarm _)
    (barrier.alarmed_compare alarm "w0" start)
    (Option.rel_map (fun p => p.alarmed_compare alarm _) preconditioner)
    options.stop.compare_self

theorem minimizeNewtonConstrained_quiet (gradient : VectorField α σ) (hessian : Tensor α σ)
    (start : Datum α) (barrier : Barrier α σ) (path : CentralPath.Options α)
    (options : Newton.Options α σ) (preconditioner : Option (Preconditioner α σ)) :
    (minimizeNewtonConstrained gradient hessian start barrier path options preconditioner).Quiet
      (fun alarm => minimizeNewtonConstrained (gradient.alarmed alarm) (hessian.alarmed alarm) start
        (barrier.alarmed alarm) path options (preconditioner.map (·.alarmed alarm)))
      fun certificate => start.Matches "w0" certificate.optimum := by
  refine Comparison.Compares.quiet fun alarm => ?_
  exact minimizeNewtonConstrained_compares (fun w hw => Datum.matches_of_read hw)
    (gradient.alarmed_compare alarm _) (hessian.alarmed_compare alarm _)
    (barrier.alarmed_compare alarm "w0" start)
    (Option.rel_map (fun p => p.alarmed_compare alarm _) preconditioner)
    options.stop.compare_self

/-- **Lengths agree everywhere.** A search between arrays of one length has nothing to stretch. An
operator refuses a vector that misses its size. Alarms, which go off wherever a caller's function
returns a vector of a length that does not belong there or an operator of a fixed size meets one,
change nothing: operators, solves, both minimizers without constraints and with those of any
barrier, and Jacobi preconditioners have ended in a fault of dimensions by then. What they return is
as long as the right-hand side, the start or the point. A guess of another length than the
right-hand side is refused.

Operators of the callers' own refuse a vector that misses their size, too. If they keep lengths,
they act as operators of the library, which is how they take part in everything else: their images
have the length of the vector, and a solve with them is one with operators of the library. -/
theorem lengths_agree {n : Nat} (op : Operator α σ) (u d : Vec α n) (A : OperatorLike α σ)
    (b guess start : Datum α) (system : LinearSystem.Options α) (maxIterations : Datum α)
    (inverse : Option (OperatorLike α σ)) (own : CustomOperator α σ)
    (ownInverse : Option (CustomOperator α σ)) (value : Option (ScalarField α σ))
    (gradient : VectorField α σ) (hessian : Tensor α σ) (outside : Region α σ)
    (smoother : Option (Tensor α σ)) (conjugate : Conjugate.Options α σ)
    (newton : Newton.Options α σ) (barrier : Barrier α σ) (path : CentralPath.Options α)
    (preconditioner : Option (Preconditioner α σ)) (parts : Jacobi.Parts α σ) (count : Number α)
    (diagonal : VectorField α σ) (t : α) :
    Ray.stretched gradient outside u.toArray d.toArray =
      Ray.through (gradient.valueAt "gradient") (fun y => outside y.toArray) u d ∧
    (∀ size, op.size? = some size → size ≠ n →
      op.apply u = throw (op.misfit n) ∧ (op.misfit n).kind = .dimension) ∧
    (op.apply u).Quiet (fun alarm => (op.alarmed alarm).apply u) (fun _ => True) ∧
    (solveLinear A b guess system maxIterations inverse).Quiet
      (fun alarm => solveLinear (A.alarmed alarm) b guess system maxIterations
        (inverse.map (·.alarmed alarm)))
      (b.Matches "b") ∧
    (∀ tolerance system' inverse' rhs d x₀,
      system.tolerance.insist "tolerance" .nonNegative = .ok tolerance →
      A.toOperator = .ok system' → inverse.mapM OperatorLike.toOperator = .ok inverse' →
      b.toVector "b" = .ok rhs → guess.given? = some d → d.toVector "x0" = .ok x₀ →
      x₀.size ≠ rhs.size →
      solveLinear A b guess system maxIterations inverse =
        throw (.lengths "b" rhs.size "x0" x₀.size)) ∧
    (∀ size, own.size? = some size → size ≠ n →
      own.apply u.toArray = throw (own.misfit n) ∧ (own.misfit n).kind = .dimension) ∧
    (own.KeepsLengths →
      (own.apply u.toArray).Keeps Invariant.none (fun image => image.size = n) ∧
      own.wrapped.apply u = own.actsOn n u) ∧
    (own.KeepsLengths → (∀ M ∈ ownInverse, M.KeepsLengths) →
      solveCustom own b guess system maxIterations ownInverse =
        solveLinear (.operator own.wrapped) b guess system maxIterations
          ((ownInverse.map CustomOperator.wrapped).map .operator) ∧
      (solveCustom own b guess system maxIterations ownInverse).Quiet
        (fun alarm => solveLinear (.operator (own.wrapped.alarmed alarm)) b guess system
          maxIterations (ownInverse.map fun M => .operator (M.wrapped.alarmed alarm)))
        (b.Matches "b")) ∧
    (minimizeConjugate value gradient start conjugate outside smoother).Quiet
      (fun alarm => minimizeConjugate value (gradient.alarmed alarm) start conjugate outside
        (smoother.map (·.alarmed alarm)))
      (start.Matches "w0") ∧
    (minimizeNewton gradient hessian start outside newton smoother).Quiet
      (fun alarm => minimizeNewton (gradient.alarmed alarm) (hessian.alarmed alarm) start outside
        newton (smoother.map (·.alarmed alarm)))
      (start.Matches "w0") ∧
    (minimizeConjugateConstrained value gradient start barrier path conjugate preconditioner).Quiet
      (fun alarm => minimizeConjugateConstrained value (gradient.alarmed alarm) start
        (barrier.alarmed alarm) path conjugate (preconditioner.map (·.alarmed alarm)))
      (fun certificate => start.Matches "w0" certificate.optimum) ∧
    (minimizeNewtonConstrained gradient hessian start barrier path newton preconditioner).Quiet
      (fun alarm => minimizeNewtonConstrained (gradient.alarmed alarm) (hessian.alarmed alarm) start
        (barrier.alarmed alarm) path newton (preconditioner.map (·.alarmed alarm)))
      (fun certificate => start.Matches "w0" certificate.optimum) ∧
    (Jacobi.operatorAt parts count diagonal t u).Quiet
      (fun alarm => Jacobi.operatorAt (parts.alarmed alarm) count (diagonal.alarmed alarm) t u)
      (fun op => op.size? = some (n : Int)) := by
  refine ⟨Ray.stretched_eq_through gradient outside u d, ?_, op.apply_quiet u,
    solveLinear_quiet A b guess system maxIterations inverse, ?_, ?_, fun hown => ⟨?_, ?_⟩,
    fun hown hinverse => ⟨?_, ?_⟩,
    minimizeConjugate_quiet value gradient start conjugate outside smoother,
    minimizeNewton_quiet gradient hessian start outside newton smoother,
    minimizeConjugateConstrained_quiet value gradient start barrier path conjugate preconditioner,
    minimizeNewtonConstrained_quiet gradient hessian start barrier path newton preconditioner,
    Jacobi.operatorAt_quiet parts count diagonal t u⟩
  · intro size hsize hne
    exact ⟨Operator.apply_of_misfit hsize hne u, rfl⟩
  · intro tolerance system' inverse' rhs d x₀ htolerance hA hinverse hb hguess hx₀ hne
    exact solveLinear_of_guess htolerance hA hinverse hb hguess hx₀ hne
  · intro size hsize hne
    obtain ⟨u, rfl⟩ := u
    exact ⟨CustomOperator.apply_of_misfit hsize hne, rfl⟩
  · exact (hown.apply_keeps u.toArray).mono fun image himage => himage.trans u.size_toArray
  · exact hown.wrapped_apply u
  · exact solveCustom_eq_solveLinear hown hinverse b guess system maxIterations
  · rw [solveCustom_eq_solveLinear hown hinverse]
    have hquiet := solveLinear_quiet (.operator own.wrapped) b guess system maxIterations
      ((ownInverse.map CustomOperator.wrapped).map .operator)
    simp only [Option.map_map] at hquiet ⊢
    exact hquiet

/-- A gradient of one entry, whatever the point is. -/
def lonely : VectorField Float Unit := fun _ => return .vector #[1]

/-- An operator of the callers' own that keeps lengths. -/
def doubling : CustomOperator Float Unit := .own "Doubling" none fun v => return v.map (2 * ·)

theorem doubling_keepsLengths : doubling.KeepsLengths :=
  fun _ _ => .pure Array.size_map

/-- A guess of one entry for three unknowns, a diagonal of two factors against a vector of three
entries, a gradient of one entry at a point with two, and a solve with an operator of the callers'
own. -/
theorem lengths_agree_lonely :
    solveLinear (.operator .identity) (.vector #[1, 2, 3]) (.vector #[5])
        { tolerance := .number (.whole 0) } .nothing none =
      (throw (.lengths "b" 3 "x0" 1) : Run Float Unit (Array Float)) ∧
    (Operator.diagonal #[1, 2]).apply #v[1, 2, 3] =
      (throw (.operand "DiagonalOperator" 2 3) : Run Float Unit (Vec Float 3)) ∧
    (minimizeConjugate none lonely (.vector #[1, 2]) {} Region.everywhere none).Quiet
      (fun alarm => minimizeConjugate none (lonely.alarmed alarm) (.vector #[1, 2]) {}
        Region.everywhere none)
      (Datum.Matches "w0" (.vector #[1, 2])) ∧
    doubling.wrapped.apply #v[1, 2, 3] = doubling.actsOn 3 #v[1, 2, 3] ∧
    solveCustom doubling (.vector #[1, 2, 3]) (.vector #[5]) { tolerance := .number (.whole 0) }
        .nothing none =
      solveLinear (.operator doubling.wrapped) (.vector #[1, 2, 3]) (.vector #[5])
        { tolerance := .number (.whole 0) } .nothing none := by
  obtain ⟨-, hmisfit, -, -, hguess, -, hown, hsolve, hconjugate, -⟩ := @lengths_agree Float Unit _ 3
    (.diagonal #[1, 2]) #v[1, 2, 3] #v[1, 2, 3] (.operator .identity) (.vector #[1, 2, 3])
    (.vector #[5]) (.vector #[1, 2]) { tolerance := .number (.whole 0) } .nothing none doubling none
    none lonely (.constant (.operator .identity)) Region.everywhere none {} {}
    (.family ⟨0, fun _ _ => pure 0, fun _ => lonely, none, none⟩) {} none
    ⟨fun _ _ => pure 0, fun _ => lonely, none⟩ (.whole 0) lonely 1
  refine ⟨?_, (hmisfit 2 rfl (by decide)).1, hconjugate, (hown doubling_keepsLengths).2,
    (hsolve doubling_keepsLengths nofun).1⟩
  exact hguess (.whole 0) .identity none #[1, 2, 3] (.vector #[5]) #[5] rfl rfl rfl rfl rfl rfl
    (by decide)

/-- That gradient ends a minimization at once. -/
example : ∃ s, (minimizeConjugate none lonely (.vector #[1, 2]) {} Region.everywhere none).run
    (Session.initial ()) = .error (.lengths "gradient" 1 "x" 2) s :=
  ⟨_, rfl⟩

/-- An operator of the callers' own that returns one entry, whatever it is applied to. -/
def solitary : CustomOperator Float Unit := .own "Solitary" none fun _ => return #[1]

/-- An integer with more than four hundred digits lies outside the range of doubles. -/
theorem Decimal.ofInt?_eq_none {i : Int} {digits : Nat} (hdigits : 400 ≤ digits)
    (h : ¬i.natAbs < 10 ^ digits) : Decimal.ofInt? i = none := by
  have hlength : 400 < i.natAbs.repr.length := by
    refine Nat.lt_of_le_of_lt hdigits (Nat.lt_of_not_le fun hle => h ?_)
    exact (Nat.length_repr_le_iff (by omega)).1 hle
  have hne : i.natAbs ≠ 0 := by
    intro hzero
    rw [hzero] at hlength
    exact absurd hlength (by decide)
  have hlarge : Decimal.ofDecimal i.natAbs 0 = 1.0 / 0.0 := by
    unfold Decimal.ofDecimal
    dsimp only
    rw [if_neg (by omega), if_pos (by omega)]
  have hinfinite : (1.0 / 0.0 : Float).isFinite = false := by decide +kernel
  unfold Decimal.ofInt?
  dsimp only
  rw [hlarge, hinfinite]
  rfl

/-- An integer that is out of the range of the arithmetic ends the reading of a vector. -/
theorem Datum.toVector_of_outOfRange {i : Int} (h : (Numeral.ofInt? i : Option α) = none)
    (name : String) :
    (sequence [number (.whole i)] : Datum α).toVector name = .error .outOfRange := by
  have hleaf : (number (.whole i) : Datum α).leaf = .error .outOfRange := by
    simp only [leaf, Number.toScalar, h]
  have hblock : (sequence [number (.whole i)] : Datum α).toBlock = .error .outOfRange := by
    show Block.mapM leaf ⟨[1], #[number (.whole i)]⟩ = _
    simp [Block.mapM, hleaf]
  simp only [toVector, hblock]
  rfl

/-- A guess is read before its entries are counted. -/
theorem solveLinear_of_outOfRange {i : Int} (h : (Numeral.ofInt? i : Option Float) = none) :
    solveLinear (.operator .identity) (.vector #[1, 2]) (.sequence [.number (.whole i)]) {}
      .nothing none = (throw .outOfRange : Run Float Unit (Array Float)) := by
  have hread : LinearSystem.readGuess 2 (.sequence [.number (.whole i)] : Datum Float) =
      .error .outOfRange := by
    show (Datum.toVector "x0" _ >>= _) = _
    rw [Datum.toVector_of_outOfRange h "x0"]
    rfl
  show (Run.ofExcept (LinearSystem.readGuess 2 _ >>= _) >>= _) = _
  rw [hread]
  rfl

/-- **Two ways in which lengths are not compared.** An operator of the callers' own returns one
entry for three unknowns: the entry is stretched, the residual is zero, and so the guess is
returned. The only entry of a guess for two unknowns cannot be read: that fault comes first, and it
is none of dimensions. -/
theorem lengths_disagree :
    (∃ s, (solitary.apply #[1, 1, 1]).run (Session.initial ()) = .ok #[1] s) ∧
    (match (solveCustom solitary (.vector #[1, 1, 1]) .nothing {} .nothing none).run
        (Session.initial ()) with
      | .ok x _ => x.map (· == 0)
      | .error _ _ => #[]) = #[true, true, true] ∧
    solveLinear (.operator .identity) (.vector #[1, 2]) (.sequence [.number (.whole (10 ^ 400))]) {}
      .nothing none = (throw .outOfRange : Run Float Unit (Array Float)) ∧
    Fault.outOfRange.kind ≠ .dimension := by
  refine ⟨⟨_, rfl⟩, by decide +kernel, ?_, by decide⟩
  exact solveLinear_of_outOfRange (Decimal.ofInt?_eq_none (Nat.le_refl 400) (by decide +kernel))

end Descent
