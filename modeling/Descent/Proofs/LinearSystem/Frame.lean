import Descent.LinearSystem
import Descent.Proofs.Exact.Frame
import Descent.Proofs.Run.Image

/-!
# Linear systems in other coordinates

With its operators turned into a frame, a system is solved there in the same way: products and norms
are the same, so every iteration takes the same branch with the same factors, and all vectors are
turned. The debug lines are the same as well.

* `Frame.conjugate`: a map between directions, in a frame;
* `LinearSystem.System.turned`: a system in a frame;
* `LinearSystem.step_turned`, `LinearSystem.iterate_turned`, `LinearSystem.run_turned`: one
  iteration, the loop, and the whole solve.
-/

namespace Descent

variable {σ : Type} {n : Nat} (F : Frame n)

/-- A map between directions, in a frame. -/
noncomputable def Frame.conjugate (map : LinearMap ℝ σ n) : LinearMap ℝ σ n := fun w =>
  F.turn <$> map (F.turnBack w)

theorem Frame.conjugate_turn (map : LinearMap ℝ σ n) (v : Vec ℝ n) :
    Run.Sends F.turn (map v) (F.conjugate map (F.turn v)) := by
  rw [Run.Sends, conjugate, turnBack_turn]

namespace LinearSystem

/-- The system in a frame. -/
noncomputable def System.turned (system : System ℝ σ n) : System ℝ σ n where
  apply := F.conjugate system.apply
  precondition := system.precondition.map F.conjugate

noncomputable def State.turned (s : State ℝ n) : State ℝ n where
  point := F.turn s.point
  residual := F.turn s.residual
  direction := F.turn s.direction
  product := s.product

noncomputable def Step.turned : Step ℝ n → Step ℝ n
  | .refused => .refused
  | .last exit point residual => .last exit (F.turn point) (F.turn residual)
  | .next s => .next (s.turned F)

noncomputable def Report.turned (report : Report ℝ n) : Report ℝ n :=
  { report with point := F.turn report.point, residual := F.turn report.residual }

theorem System.smooth_turned (system : System ℝ σ n) (r : Vec ℝ n) :
    Run.Sends F.turn (system.smooth r) ((system.turned F).smooth (F.turn r)) := by
  obtain ⟨apply, precondition⟩ := system
  cases precondition with
  | none => exact .pure rfl
  | some map => exact F.conjugate_turn map r

/-- **An iteration takes the same branch in every frame.** -/
theorem step_turned (system : System ℝ σ n) (tolerance : ℝ) (s : State ℝ n) :
    Run.Sends (Step.turned F) (step system tolerance s)
      (step (system.turned F) tolerance (s.turned F)) := by
  refine .bind (F.conjugate_turn system.apply s.direction) fun image => ?_
  simp only [State.turned, F.dot_turn, ← F.turn_hmul, ← F.turn_sub, ← F.turn_along, F.norm_turn]
  refine .ite Iff.rfl (fun _ => .pure rfl) fun _ => ?_
  refine .ite Iff.rfl (fun _ => .pure rfl) fun _ => ?_
  refine .bind (system.smooth_turned F _) fun smoothed => ?_
  simp only [F.dot_turn, ← F.turn_along]
  refine .ite Iff.rfl (fun _ => .pure rfl) fun _ => ?_
  exact .after _ fun beta => .pure rfl

theorem iterate_turned (system : System ℝ σ n) (tolerance : ℝ) : ∀ budget completed s,
    Run.Sends (Report.turned F) (iterate system tolerance budget completed s)
      (iterate (system.turned F) tolerance budget completed (s.turned F)) := by
  intro budget
  induction budget with
  | zero => exact fun completed s => .pure rfl
  | succ budget ih =>
    intro completed s
    refine .bind (step_turned F system tolerance s) fun step => ?_
    cases step with
    | refused => exact .pure rfl
    | last exit point residual => exact .pure rfl
    | next t => exact ih (completed + 1) t

theorem solve_turned (system : System ℝ σ n) (b guess : Vec ℝ n) (tolerance : ℝ) (budget : Nat) :
    Run.Sends (Report.turned F) (solve system b guess tolerance budget)
      (solve (system.turned F) (F.turn b) (F.turn guess) tolerance budget) := by
  refine .bind (F.conjugate_turn system.apply guess) fun image => ?_
  simp only [← F.turn_sub, F.norm_turn]
  refine .ite Iff.rfl (fun _ => .pure rfl) fun _ => ?_
  refine .bind (system.smooth_turned F _) fun smoothed => ?_
  rw [F.dot_turn]
  exact iterate_turned F system tolerance budget 0 ⟨guess, b - image, smoothed, _⟩

variable [RealText]

/-- The line that sums up a solve tells of no coordinates. -/
theorem Report.line_turned (report : Report ℝ n) : (report.turned F).line = report.line := by
  have hnorm : Vec.norm (report.turned F).residual = Vec.norm report.residual := F.norm_turn _
  have hiterations : (report.turned F).iterations = report.iterations := rfl
  have hexit : (report.turned F).exit = report.exit := rfl
  unfold line
  rw [hnorm, hiterations, hexit]

/-- **A solve in a frame is the solve outside, turned.** -/
theorem run_turned (system : System ℝ σ n) (b guess : Vec ℝ n) (tolerance : ℝ) (budget : Nat) :
    Run.Sends (Report.turned F) (run system b guess tolerance budget)
      (run (system.turned F) (F.turn b) (F.turn guess) tolerance budget) := by
  refine .bind (solve_turned F system b guess tolerance budget) fun report => ?_
  dsimp only
  rw [report.line_turned F]
  exact .ite Iff.rfl (fun _ => .after _ fun _ => .pure rfl) fun _ => .pure rfl

end LinearSystem

end Descent
