import Descent.LinearSystem
import Descent.Proofs.Run.Triple

/-!
# The course of a solve

A solve reports where it ended. `LinearSystem.course` is the same loop with a record of the states
that iterations started from.

* `LinearSystem.iterate_eq_course`, `LinearSystem.solve_eq_courseFrom`: a solve does what its
  recorded loop does, and reports the end of the record.
* `LinearSystem.record`, `LinearSystem.announce`: a solve for callers, recorded, and what is left to
  do after it; `solveLinear_eq_record`: together they are the solve.
-/

namespace Descent

namespace LinearSystem

/-- The states that the completed iterations started from, in order, and where the last one
ended. -/
structure Course (α : Type) (n : Nat) where
  heads : List (State α n)
  point : Vec α n
  residual : Vec α n
  exit : Exit

/-- The report of a course that follows `completed` iterations. -/
def Course.report {α : Type} {n : Nat} (c : Course α n) (completed : Nat) : Report α n :=
  ⟨c.point, c.residual, completed + c.heads.length, c.exit⟩

variable {α σ : Type} {n : Nat} [Scalar α]

/-- The loop over the iterations, recorded. -/
def course (system : System α σ n) (tolerance : α) :
    (budget : Nat) → State α n → Run α σ (Course α n)
  | 0, s => return ⟨[], s.point, s.residual, .budget⟩
  | budget + 1, s => do
    match ← step system tolerance s with
    | .refused => return ⟨[], s.point, s.residual, .curvature⟩
    | .last exit point residual => return ⟨[s], point, residual, exit⟩
    | .next t => do
      let c ← course system tolerance budget t
      return { c with heads := s :: c.heads }

/-- A solve, recorded. -/
def courseFrom (system : System α σ n) (b guess : Vec α n) (tolerance : α) (budget : Nat) :
    Run α σ (Course α n) := do
  let image ← system.apply guess
  let residual := b - image
  if Vec.norm residual < tolerance || n = 0 then return ⟨[], guess, residual, .atStart⟩
  let smoothed ← system.smooth residual
  course system tolerance budget ⟨guess, residual, smoothed, Vec.dot residual smoothed⟩

/-- The loop reports the end of its course. -/
theorem iterate_eq_course (system : System α σ n) (tolerance : α) : ∀ budget completed s,
    iterate system tolerance budget completed s =
      (fun c => c.report completed) <$> course system tolerance budget s := by
  intro budget
  induction budget with
  | zero => intro completed s; rfl
  | succ budget ih =>
    intro completed s
    rw [iterate, course, map_bind]
    congr 1
    funext r
    cases r with
    | refused => rfl
    | last exit point residual => rfl
    | next t =>
      simp only [ih, map_eq_pure_bind, bind_assoc, pure_bind, Course.report,
        List.length_cons, Nat.add_assoc, Nat.add_comm 1]

/-- A solve reports the end of its course. -/
theorem solve_eq_courseFrom (system : System α σ n) (b guess : Vec α n) (tolerance : α)
    (budget : Nat) : solve system b guess tolerance budget =
      (fun c => c.report 0) <$> courseFrom system b guess tolerance budget := by
  rw [solve, courseFrom, map_bind]
  congr 1
  funext image
  dsimp only
  split
  · rfl
  · rw [map_bind]
    congr 1
    funext smoothed
    exact iterate_eq_course system tolerance budget 0 _

/-- A recorded solve of as many unknowns as it was given. -/
abbrev Record (α : Type) := (n : Nat) × Course α n

section

variable {α σ : Type} [Numeral α]

/-- The system that was read from callers is that of the operators they give. -/
theorem Task.system_of_read {A : OperatorLike α σ} {b guess maxIterations : Datum α}
    {options : Options α} {preconditioner : Option (OperatorLike α σ)} {task : Task α σ}
    (hread : Task.read A b guess options maxIterations preconditioner = .ok task) :
    ∃ op smoother, A.toOperator = .ok op ∧
      preconditioner.mapM OperatorLike.toOperator = .ok smoother ∧
      task.system = ⟨op.apply, smoother.map fun op => op.apply⟩ := by
  obtain ⟨_, _, hread⟩ := Fault.bind_eq_ok hread
  obtain ⟨op, hop, hread⟩ := Fault.bind_eq_ok hread
  obtain ⟨smoother, hsmoother, hread⟩ := Fault.bind_eq_ok hread
  obtain ⟨_, _, hread⟩ := Fault.bind_eq_ok hread
  obtain ⟨_, _, hread⟩ := Fault.bind_eq_ok hread
  obtain ⟨_, _, hread⟩ := Fault.bind_eq_ok hread
  cases hread
  exact ⟨op, smoother, hop, hsmoother, rfl⟩

/-- A solve for data as callers give them, recorded. -/
def record (A : OperatorLike α σ) (b guess : Datum α) (options : Options α)
    (maxIterations : Datum α) (preconditioner : Option (OperatorLike α σ)) :
    Run α σ (Record α) := do
  let task ← Run.ofExcept (Task.read A b guess options maxIterations preconditioner)
  let c ← courseFrom task.system task.rhs task.guess task.tolerance task.budget
  return ⟨task.unknowns, c⟩

/-- What a solve does after its last iteration: it writes a debug line, unless there was nothing to
do, and returns the point where it ended. -/
def announce (r : Record α) : Run α σ (Array α) := do
  if r.2.exit ≠ .atStart then Run.debug .linearSystem fun _ => (r.2.report 0).line
  return r.2.point.toArray

/-- After its last iteration a solve cannot fail, and it leaves what callers see as it was. -/
theorem announce_yields {I : Invariant α σ} (r : Record α) :
    (announce r).Yields I r.2.point.toArray := by
  unfold announce
  split
  · exact .bind .debug .pure
  · exact .bind .pure .pure

end

end LinearSystem

open LinearSystem in
/-- A solve does what its record does and announces the end of it. -/
theorem solveLinear_eq_record {α σ : Type} [Numeral α] (A : OperatorLike α σ) (b guess : Datum α)
    (options : LinearSystem.Options α) (maxIterations : Datum α)
    (preconditioner : Option (OperatorLike α σ)) :
    solveLinear A b guess options maxIterations preconditioner =
      record A b guess options maxIterations preconditioner >>= announce := by
  simp only [solveLinear, record, run, solve_eq_courseFrom, map_eq_pure_bind, bind_assoc,
    pure_bind]
  refine bind_congr fun task => bind_congr fun c => ?_
  by_cases hexit : c.exit = .atStart
  · simp [announce, Course.report, hexit]
  · simp [announce, Course.report, hexit]

end Descent
