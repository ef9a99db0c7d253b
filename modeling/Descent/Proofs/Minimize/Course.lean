import Descent.Proofs.Minimize.Reading

/-!
# The course of a minimization

A minimization by conjugate gradients returns the point where it ended. `Conjugate.course` is the
same loop with a record of the states at which its searches were aimed: those after an accepted step
and those restarted because a search along a conjugate direction had made no progress.

* `Conjugate.iterate_eq_course`, `Conjugate.solve_eq_courseFrom`: a run does what its recorded loop
  does, and reports the end of the record;
* `Conjugate.record`: a minimization for callers, recorded; `Conjugate.account_eq_record`: its
  account is what the record says at its end, so `minimizeConjugate_eq_record`: the minimization is
  the record, announced.
-/

namespace Descent

namespace Conjugate

/-- The states at the heads of the searches, in order, and the report of the run. -/
structure Course (α : Type) (n : Nat) where
  heads : List (State α n)
  report : Report α n

/-- A course with more states before it. -/
def Course.after {α : Type} {n : Nat} (earlier : List (State α n)) (c : Course α n) : Course α n :=
  { c with heads := earlier ++ c.heads }

/-- A recorded minimization of as many unknowns as it was given. -/
abbrev Record (α : Type) := (n : Nat) × Course α n

section

variable {α σ : Type} {n : Nat} [Numeral α]

/-- The loop over the legs, recorded. -/
def course (problem : Problem α σ n) (rule : Rule α) :
    (budget : Nat) → State α n → Run α σ (Course α n)
  | 0, s => do
    if ← problem.stop s.gradient s.iterations then return ⟨[s], s.report .criterion⟩
    else return ⟨[s], s.report .budget⟩
  | budget + 1, s => do
    if ← problem.stop s.gradient s.iterations then return ⟨[s], s.report .criterion⟩
    else
      match ← leg problem rule s with
      | .accepted t => return (← course problem rule budget t).after [s]
      | .ended exit t => return ⟨[s], t.report exit⟩
      | .retry t =>
        if ← problem.stop t.gradient t.iterations then return ⟨[s, t], t.report .criterion⟩
        else
          match ← leg problem rule t with
          | .accepted u => return (← course problem rule budget u).after [s, t]
          | .ended exit u => return ⟨[s, t], u.report exit⟩
          | .retry u => return ⟨[s, t], u.report .noProgress⟩

/-- A minimization, recorded. -/
def courseFrom (problem : Problem α σ n) (rule : Rule α) (budget : Nat) (start : Vec α n) :
    Run α σ (Course α n) := do
  let gradient ← problem.gradient start
  let smoothed ← problem.precondition start gradient
  course problem rule budget
    { point := start, gradient, smoothed
      product := Vec.dot gradient smoothed
      direction := -smoothed
      sinceRestart := 0
      previous := none
      iterations := 0
      evaluations := 1 }

/-- The loop reports the end of its course. -/
theorem iterate_eq_course (problem : Problem α σ n) (rule : Rule α) : ∀ budget s,
    iterate problem rule budget s = Course.report <$> course problem rule budget s := by
  intro budget
  induction budget with
  | zero =>
    intro s
    rw [iterate, course, map_bind]
    congr 1
    funext holds
    cases holds <;> rfl
  | succ budget ih =>
    intro s
    rw [iterate, course, map_bind]
    congr 1
    funext holds
    cases holds with
    | true => rfl
    | false =>
      simp only [Bool.false_eq_true, if_false, map_bind]
      congr 1
      funext r
      cases r with
      | accepted t => simp only [ih, map_eq_pure_bind, bind_assoc, pure_bind, Course.after]
      | ended exit t => rfl
      | retry t =>
        simp only [map_bind]
        congr 1
        funext holds
        cases holds with
        | true => rfl
        | false =>
          simp only [Bool.false_eq_true, if_false, map_bind]
          congr 1
          funext r
          cases r with
          | accepted u => simp only [ih, map_eq_pure_bind, bind_assoc, pure_bind, Course.after]
          | ended exit u => rfl
          | retry u => rfl

/-- A minimization reports the end of its course. -/
theorem solve_eq_courseFrom (problem : Problem α σ n) (rule : Rule α) (budget : Nat)
    (start : Vec α n) : solve problem rule budget start =
      Course.report <$> courseFrom problem rule budget start := by
  simp only [solve, courseFrom, map_bind, iterate_eq_course]

end

variable {α σ : Type} [Numeral α]

/-- A minimization for data as callers give them, recorded. -/
def record (gradient : VectorField α σ) (start : Datum α) (options : Options α σ)
    (outside : Region α σ) (preconditioner : Option (Tensor α σ)) : Run α σ (Record α) := do
  let task ← Run.ofExcept (Task.read gradient start options outside preconditioner)
  let c ← courseFrom task.problem task.rule task.budget task.start
  return ⟨task.unknowns, c⟩

/-- What a minimization does after its last step, with the report at the end of its record. -/
def announce (value : Option (ScalarField α σ)) (r : Record α) : Run α σ (Array α) :=
  publish value r.2.report

/-- An account is what a record says at its end. -/
theorem account_eq_record (gradient : VectorField α σ) (start : Datum α) (options : Options α σ)
    (outside : Region α σ) (preconditioner : Option (Tensor α σ)) :
    account gradient start options outside preconditioner =
      (fun r => ⟨r.1, r.2.report⟩) <$>
        record gradient start options outside preconditioner := by
  simp only [account, Minimize.account, record, solve_eq_courseFrom, map_eq_pure_bind, bind_assoc,
    pure_bind]

theorem announce_returns (value : Option (ScalarField α σ)) (r : Record α) :
    (announce value r).Returns r.2.report.point.toArray := by
  refine .bind .debugEnabled fun enabled _ => ?_
  refine .ite (fun _ => ?_) fun _ => .pure rfl
  cases value with
  | none =>
    refine .bind (R := fun _ => True) (.pure trivial) fun _ _ => ?_
    exact .bind .debug fun _ _ => .pure rfl
  | some f => exact .bind (Run.keeps_none _) fun _ _ => .bind .debug fun _ _ => .pure rfl

end Conjugate

open Conjugate in
/-- A minimization does what its record does and announces the end of it. -/
theorem minimizeConjugate_eq_record {α σ : Type} [Numeral α] (value : Option (ScalarField α σ))
    (gradient : VectorField α σ) (start : Datum α) (options : Conjugate.Options α σ)
    (outside : Region α σ) (preconditioner : Option (Tensor α σ)) :
    minimizeConjugate value gradient start options outside preconditioner =
      record gradient start options outside preconditioner >>= announce value := by
  rw [minimizeConjugate_eq_account, account_eq_record, bind_map_left]
  rfl

end Descent
