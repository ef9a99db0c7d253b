import Descent.Proofs.Exact.Operator
import Descent.Proofs.LinearSystem.Termination
import Descent.Proofs.Minimize.Course
import Descent.Proofs.Minimize.Work

/-!
# Minimizations that end without a direction

A minimization by conjugate gradients ends without a direction where neither the conjugate nor the
steepest one descends. Over the reals and with a positive definite preconditioner this only happens
where the gradient is zero.

* `Conjugate.Report.Stranded`, `Conjugate.solve_stranded`: where such a minimization ends, whatever
  the arithmetic;
* `Conjugate.record_stranded`: that the gradient is zero there.
-/

namespace Descent

open LinearSystem (PositiveDefinite)

namespace Conjugate

section

variable {α σ : Type} {n : Nat} [Numeral α] {problem : Problem α σ n} {rule : Rule α}
  {s : State α n} {limit : Nat}

/-- The run ended at a head from which neither direction descends. -/
def Report.Stranded (problem : Problem α σ n) (rule : Rule α) (report : Report α n) : Prop :=
  ∃ s : State α n, s.Sound problem rule ∧ aim s = none ∧ report = s.report .noDescent

/-- Only an iteration that finds no direction ends a run for that reason. -/
theorem Turns.stranded (hs : s.Sound problem rule) {last : Option (Search α n)}
    {report : Report α n} (h : Turns problem rule limit s (.done last report))
    (hexit : report.exit = .noDescent) : report.Stranded problem rule := by
  generalize hround : Run.Round.done last report = round at h
  cases h with
  | criterion | budget =>
    cases hround
    cases hexit
  | noDescent left haim =>
    cases hround
    exact ⟨s, hs, haim, rfl⟩
  | search left haim work settles =>
    cases settles with
    | accepted | retry => cases hround
    | ended =>
      cases hround
      cases hexit

theorem iterate_stranded (hs : s.Sound problem rule) (budget : Nat) :
    (iterate problem rule budget s).Keeps Invariant.none fun report =>
      report.exit = .noDescent → report.Stranded problem rule := by
  obtain ⟨limit, rfl⟩ : ∃ limit, limit - s.iterations = budget :=
    ⟨budget + s.iterations, Nat.add_sub_cancel _ _⟩
  refine (iterate_loops problem rule limit).keeps (P := fun s => s.Sound problem rule)
    (turn_descends problem rule limit) (fun t ht => ?_) hs
  refine (turn_keeps problem rule limit t).mono fun r hr => ?_
  cases r with
  | again search u => exact hr.sound ht
  | done last report => exact hr.stranded ht

/-- **A minimization that ends without a direction ends at a head from which none descends.** -/
theorem solve_stranded (problem : Problem α σ n) (rule : Rule α) (budget : Nat) (start : Vec α n) :
    (solve problem rule budget start).Keeps Invariant.none fun report =>
      report.exit = .noDescent → report.Stranded problem rule := by
  rw [solve_eq_opening]
  exact (opening_keeps problem rule start).bind fun s hs => iterate_stranded hs.sound budget

end

variable {σ : Type} [RealText] {n : Nat} {tensor : Tensor ℝ σ}

/-! ## Positive definite preconditioners -/

/-- Preconditioned gradients are images under a positive definite map. -/
theorem smooth_positive
    (htensor : ∀ x : Vec ℝ n, (tensor.operatorAt x).Keeps Invariant.none fun op =>
      ∃ M : Vec ℝ n →ₗ[ℝ] Vec ℝ n, PositiveDefinite M ∧ op.Applies Invariant.none M)
    (x g : Vec ℝ n) : (smooth (some tensor) x g).Keeps Invariant.none fun z =>
      ∃ M : Vec ℝ n →ₗ[ℝ] Vec ℝ n, PositiveDefinite M ∧ z = M g := by
  refine .bind (htensor x) fun op ⟨M, hM, hop⟩ => ?_
  exact (hop g).keeps.mono fun z hz => ⟨M, hM, hz⟩

/-- If the steepest direction does not descend under a positive definite preconditioner, the
gradient is zero. -/
theorem Report.Stranded.gradient_eq_zero {problem : Problem ℝ σ n} {rule : Rule ℝ}
    {report : Report ℝ n} (h : report.Stranded problem rule)
    (hprecondition : ∀ x g, (problem.precondition x g).Keeps Invariant.none fun z =>
      ∃ M : Vec ℝ n →ₗ[ℝ] Vec ℝ n, PositiveDefinite M ∧ z = M g) :
    report.gradient = 0 := by
  obtain ⟨s, hs, haim, rfl⟩ := h
  obtain ⟨session, session', hgives⟩ := hs.smoothed
  obtain ⟨M, hM, hz⟩ := ((hprecondition s.point s.gradient).of_ok trivial hgives).2
  have hproduct : s.product ≤ 0 := by
    by_contra hpos
    have hdescends : -s.product < 0 := neg_neg_iff_pos.2 (not_le.1 hpos)
    simp only [aim, if_pos hdescends] at haim
    split at haim <;> cases haim
  rw [hs.product, hz] at hproduct
  exact hM.eq_zero_of_nonpos hproduct

/-- A recorded minimization with a positive definite preconditioner that ends without a direction
ends where the gradient is zero. -/
theorem record_stranded
    (htensor : ∀ {n : Nat} (x : Vec ℝ n), (tensor.operatorAt x).Keeps Invariant.none fun op =>
      ∃ M : Vec ℝ n →ₗ[ℝ] Vec ℝ n, PositiveDefinite M ∧ op.Applies Invariant.none M)
    (gradient : VectorField ℝ σ) (start : Datum ℝ) (options : Options ℝ σ)
    (outside : Region ℝ σ) :
    (record gradient start options outside (some tensor)).Keeps Invariant.none fun r =>
      r.2.report.exit = .noDescent → r.2.report.gradient = 0 ∧
        (gradient.valueAt "gradient" r.2.report.point).Gives r.2.report.gradient := by
  refine .check fun task hread => ?_
  obtain ⟨settings, -, -, hproblem, -⟩ := Minimize.Task.setUp_eq_ok hread
  have hsolve := solve_stranded task.problem task.rule task.budget task.start
  rw [solve_eq_courseFrom] at hsolve
  refine hsolve.of_map.bind fun course hcourse => .pure fun hexit => ?_
  have hstranded := hcourse hexit
  have hzero := hstranded.gradient_eq_zero fun x g => hproblem ▸ smooth_positive htensor x g
  obtain ⟨s, hs, -, hreport⟩ := hstranded
  have hgives := hs.gradient
  rw [hproblem] at hgives
  rw [hreport] at hzero ⊢
  exact ⟨hzero, hgives⟩

end Conjugate

end Descent
