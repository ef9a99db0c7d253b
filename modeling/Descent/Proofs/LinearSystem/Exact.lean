import Descent.Proofs.LinearSystem.Conjugacy

/-!
# Conjugate gradients over the reals

What a solve with exact scalars computes, for a system whose operators act as linear maps `T` and
`M`.

* `LinearSystem.step_yields`: one iteration, with each of its ends;
* `LinearSystem.course_yields`, `LinearSystem.courseFrom_yields`: the record of a solve, which
  always exists and is `LinearSystem.Course.Traced`;
* `LinearSystem.run_yields`, `LinearSystem.Task.acts_of_read`: solves and systems as callers see
  them.
-/

open scoped InnerProductSpace

namespace Descent.LinearSystem

variable {σ : Type} {n : Nat} {T M : Vec ℝ n →ₗ[ℝ] Vec ℝ n} {b guess : Vec ℝ n} {tolerance : ℝ}
  {I : Invariant ℝ σ} {system : System ℝ σ n}

/-- A system that acts as `T`, preconditioned by any map `M`; without a preconditioner `M` is the
identity. -/
structure System.Acts (I : Invariant ℝ σ) (system : System ℝ σ n) (T : Vec ℝ n →ₗ[ℝ] Vec ℝ n)
    (M : Vec ℝ n → Vec ℝ n) : Prop where
  apply : ∀ v, (system.apply v).Yields I (T v)
  smooth : ∀ r, (system.smooth r).Yields I (M r)

/-- What one iteration from a state leads to. -/
inductive Stepped (T : Vec ℝ n →ₗ[ℝ] Vec ℝ n) (M : Vec ℝ n → Vec ℝ n) (tolerance : ℝ)
    (s : State ℝ n) : Step ℝ n → Prop
  | refused : ⟪s.direction, T s.direction⟫_ℝ ≤ 0 → Stepped T M tolerance s .refused
  | met : 0 < ⟪s.direction, T s.direction⟫_ℝ → ‖s.rest T‖ < tolerance →
      Stepped T M tolerance s (.last .tolerance (s.moved T) (s.rest T))
  | stuck : 0 < ⟪s.direction, T s.direction⟫_ℝ → tolerance ≤ ‖s.rest T‖ →
      ⟪s.rest T, M (s.rest T)⟫_ℝ ≤ 0 →
      Stepped T M tolerance s (.last .preconditioner (s.moved T) (s.rest T))
  | next : 0 < ⟪s.direction, T s.direction⟫_ℝ → tolerance ≤ ‖s.rest T‖ → s.product ≠ 0 →
      Stepped T M tolerance s (.next (s.next T M))

/-- An iteration that moves nowhere ends the solve, so the next one divides by a product other than
zero. -/
theorem product_ne_zero {M : Vec ℝ n → Vec ℝ n} {s : State ℝ n}
    (hproduct : s.product = ⟪s.residual, M s.residual⟫_ℝ)
    (hpos : 0 < ⟪s.rest T, M (s.rest T)⟫_ℝ) : s.product ≠ 0 := by
  intro h0
  have hrest : s.rest T = s.residual := by
    rw [State.rest, State.length, h0, zero_div, zero_smul, sub_zero]
  rw [hrest, ← hproduct, h0] at hpos
  exact hpos.false

/-- **One iteration.** -/
theorem step_yields {M : Vec ℝ n → Vec ℝ n} (h : system.Acts I T M) (tolerance : ℝ) {s : State ℝ n}
    (hproduct : s.product = ⟪s.residual, M s.residual⟫_ℝ) :
    ∃ r, (step system tolerance s).Yields I r ∧ Stepped T M tolerance s r := by
  have hpoint : Vec.along s.point (s.product / Vec.dot s.direction (T s.direction)) s.direction =
      s.moved T := Vec.along_eq _ _ _
  have hrest : s.residual - (s.product / Vec.dot s.direction (T s.direction)) * T s.direction =
      s.rest T := by
    rw [Vec.hmul_eq_smul]
    rfl
  by_cases hcurvature : ⟪s.direction, T s.direction⟫_ℝ ≤ 0
  · refine ⟨.refused, .bind (h.apply _) ?_, .refused hcurvature⟩
    dsimp only
    rw [if_pos (by simp [Vec.dot_eq_inner, hcurvature])]
    exact .pure
  have hpos : 0 < ⟪s.direction, T s.direction⟫_ℝ := not_le.1 hcurvature
  have hgo : ¬(decide (Vec.dot s.direction (T s.direction) ≤ 0) ||
      !Scalar.isFinite (Vec.dot s.direction (T s.direction))) = true := by
    simpa [Vec.dot_eq_inner, Scalar.isFinite] using hpos
  by_cases hnorm : Vec.norm (s.rest T) < tolerance
  · refine ⟨.last .tolerance (s.moved T) (s.rest T), .bind (h.apply _) ?_, .met hpos hnorm⟩
    dsimp only
    rw [if_neg hgo, hpoint, hrest, if_pos hnorm]
    exact .pure
  by_cases hproduct' : Vec.dot (s.rest T) (M (s.rest T)) ≤ 0
  · refine ⟨.last .preconditioner (s.moved T) (s.rest T), .bind (h.apply _) ?_,
      .stuck hpos (not_lt.1 hnorm) hproduct'⟩
    dsimp only
    rw [if_neg hgo, hpoint, hrest, if_neg hnorm]
    refine .bind (h.smooth _) ?_
    rw [if_pos hproduct']
    exact .pure
  · have hne := product_ne_zero hproduct (not_le.1 hproduct')
    refine ⟨.next (s.next T M), .bind (h.apply _) ?_, .next hpos (not_lt.1 hnorm) hne⟩
    dsimp only
    rw [if_neg hgo, hpoint, hrest, if_neg hnorm]
    refine .bind (h.smooth _) ?_
    rw [if_neg hproduct']
    refine .bind (.ofExcept (Scalar.quotient_real hne _)) ?_
    rw [Vec.along_eq]
    exact .pure

/-- What the record of a solve shows: which states its iterations started from, where it ended, and
what each way to end means. -/
structure Course.Traced (T M : Vec ℝ n →ₗ[ℝ] Vec ℝ n) (b guess : Vec ℝ n) (tolerance : ℝ)
    (budget : Nat) (c : Course ℝ n) : Prop where
  heads : Heads T M b guess c.heads
  last : Reached T b guess (directions c.heads) c.point c.residual
  within : c.heads.length ≤ budget
  unmet : ∀ s ∈ c.heads, tolerance ≤ ‖s.residual‖
  met : c.exit = .tolerance → ‖c.residual‖ < tolerance
  atStart : c.exit = .atStart → ‖c.residual‖ < tolerance ∨ n = 0
  exhausted : c.exit = .budget → c.heads.length = budget
  flat : c.exit = .curvature → ∃ s, Head T M b guess c.heads s ∧ s.residual = c.residual ∧
    ⟪s.direction, T s.direction⟫_ℝ ≤ 0
  stuck : c.exit = .preconditioner → ⟪c.residual, M c.residual⟫_ℝ ≤ 0

/-- **The loop from a state of the method on.** -/
theorem course_yields (hT : T.IsSymmetric) (hM : M.IsSymmetric) (h : system.Acts I T M) :
    ∀ budget done s, Heads T M b guess done → (∀ t ∈ done, tolerance ≤ ‖t.residual‖) →
      Head T M b guess done s → tolerance ≤ ‖s.residual‖ →
      ∃ c, (course system tolerance budget s).Yields I c ∧
        Course.Traced T M b guess tolerance (done.length + budget)
          { c with heads := done ++ c.heads } := by
  intro budget
  induction budget with
  | zero =>
    intro done s hdone hunmet hs hopen
    refine ⟨⟨[], s.point, s.residual, .budget⟩, .pure, ?_⟩
    rw [List.append_nil]
    exact
      { heads := hdone
        last := hs.toReached
        within := Nat.le_add_right _ _
        unmet := hunmet
        met := nofun
        atStart := nofun
        exhausted := fun _ => rfl
        flat := nofun
        stuck := nofun }
  | succ budget ih =>
    intro done s hdone hunmet hs hopen
    obtain ⟨r, hr, hstepped⟩ := step_yields h tolerance hs.product_eq
    have hunmet' : ∀ t ∈ done ++ [s], tolerance ≤ ‖t.residual‖ :=
      List.forall_mem_append.2 ⟨hunmet, List.forall_mem_singleton.2 hopen⟩
    have hwithin : (done ++ [s]).length ≤ done.length + (budget + 1) := by
      rw [List.length_append, List.length_singleton]
      omega
    cases hstepped with
    | refused hflat =>
      refine ⟨⟨[], s.point, s.residual, .curvature⟩, .bind hr .pure, ?_⟩
      rw [List.append_nil]
      exact
        { heads := hdone
          last := hs.toReached
          within := Nat.le_add_right _ _
          unmet := hunmet
          met := nofun
          atStart := nofun
          exhausted := nofun
          flat := fun _ => ⟨s, hs, rfl, hflat⟩
          stuck := nofun }
    | met hpos hnorm =>
      refine ⟨⟨[s], s.moved T, s.rest T, .tolerance⟩, .bind hr .pure, ?_⟩
      exact
        { heads := hdone.snoc hs hpos
          last := hs.reached_next hT hpos
          within := hwithin
          unmet := hunmet'
          met := fun _ => hnorm
          atStart := nofun
          exhausted := nofun
          flat := nofun
          stuck := nofun }
    | stuck hpos hnorm hstuck =>
      refine ⟨⟨[s], s.moved T, s.rest T, .preconditioner⟩, .bind hr .pure, ?_⟩
      exact
        { heads := hdone.snoc hs hpos
          last := hs.reached_next hT hpos
          within := hwithin
          unmet := hunmet'
          met := nofun
          atStart := nofun
          exhausted := nofun
          flat := nofun
          stuck := fun _ => hstuck }
    | next hpos hnorm hne =>
      obtain ⟨c, hc, htraced⟩ := ih (done ++ [s]) (s.next T M) (hdone.snoc hs hpos) hunmet'
        (hs.head_next hT hM hpos hne) hnorm
      refine ⟨{ c with heads := s :: c.heads }, .bind hr (.bind hc .pure), ?_⟩
      rwa [List.length_append, List.length_singleton, Nat.add_assoc, Nat.add_comm 1,
        List.append_assoc, List.singleton_append] at htraced

/-- **What the record of a solve shows.** -/
theorem courseFrom_yields (hT : T.IsSymmetric) (hM : M.IsSymmetric) (h : system.Acts I T M)
    (b guess : Vec ℝ n) (tolerance : ℝ) (budget : Nat) :
    ∃ c, (courseFrom system b guess tolerance budget).Yields I c ∧
      Course.Traced T M b guess tolerance budget c := by
  by_cases hstart : (decide (Vec.norm (b - T guess) < tolerance) || decide (n = 0)) = true
  · refine ⟨⟨[], guess, b - T guess, .atStart⟩, .bind (h.apply guess) ?_, ?_⟩
    · dsimp only
      rw [if_pos hstart]
      exact .pure
    · exact
        { heads := .nil
          last := .initial T b guess
          within := Nat.zero_le _
          unmet := nofun
          met := nofun
          atStart := fun _ => (Bool.or_eq_true_iff.1 hstart).imp of_decide_eq_true of_decide_eq_true
          exhausted := nofun
          flat := nofun
          stuck := nofun }
  · have hopen : tolerance ≤ ‖b - T guess‖ := by
      simp only [Bool.or_eq_true, decide_eq_true_eq, not_or, not_lt] at hstart
      exact hstart.1
    obtain ⟨c, hc, htraced⟩ := course_yields hT hM h budget [] _ .nil nofun
      (Head.initial T M b guess) hopen
    refine ⟨c, .bind (h.apply guess) ?_, by simpa using htraced⟩
    dsimp only
    rw [if_neg hstart]
    exact .bind (h.smooth _) hc

/-! ## Systems that callers give -/

variable [RealText]

/-- A solve reports the end of its record. -/
theorem run_yields {c : Course ℝ n} {budget : Nat}
    (h : (courseFrom system b guess tolerance budget).Yields I c) :
    (run system b guess tolerance budget).Yields I (c.report 0) := by
  have hsolve : (solve system b guess tolerance budget).Yields I (c.report 0) := by
    rw [solve_eq_courseFrom]
    exact h.map
  refine .bind hsolve ?_
  by_cases hexit : (c.report 0).exit ≠ .atStart
  · rw [if_pos hexit]
    exact .bind .debug .pure
  · rw [if_neg hexit]
    exact .pure

/-- The operator that is meant acts as `T`. -/
def ActsAs (I : Invariant ℝ σ) (A : OperatorLike ℝ σ) (T : Vec ℝ n →ₗ[ℝ] Vec ℝ n) : Prop :=
  ∀ op, A.toOperator = .ok op → ∀ v, (op.apply v).Yields I (T v)

/-- A preconditioner that gives the vectors `m`, linear in the residual or not; without one residuals
stay what they are. -/
def SmoothsAs (I : Invariant ℝ σ) (preconditioner : Option (OperatorLike ℝ σ))
    (m : Vec ℝ n → Vec ℝ n) : Prop :=
  match preconditioner with
  | none => ∀ r, m r = r
  | some P => ∀ op, P.toOperator = .ok op → ∀ r, (op.apply r).Yields I (m r)

/-- A preconditioner that acts as `M`; without one residuals stay what they are. -/
def PreconditionsAs (I : Invariant ℝ σ) (preconditioner : Option (OperatorLike ℝ σ))
    (M : Vec ℝ n →ₗ[ℝ] Vec ℝ n) : Prop :=
  match preconditioner with
  | none => ∀ r, M r = r
  | some P => ActsAs I P M

/-- A linear preconditioner is one that gives vectors. -/
theorem PreconditionsAs.smoothsAs {preconditioner : Option (OperatorLike ℝ σ)}
    (h : PreconditionsAs I preconditioner M) : SmoothsAs I preconditioner M := by
  cases preconditioner <;> exact h

/-- A system that was read from callers acts as they say. -/
theorem Task.acts_of_smooths {A : OperatorLike ℝ σ} {b guess : Datum ℝ} {options : Options ℝ}
    {maxIterations : Datum ℝ} {preconditioner : Option (OperatorLike ℝ σ)} {task : Task ℝ σ}
    (hread : Task.read A b guess options maxIterations preconditioner = .ok task)
    {T : Vec ℝ task.unknowns →ₗ[ℝ] Vec ℝ task.unknowns}
    {m : Vec ℝ task.unknowns → Vec ℝ task.unknowns} (hA : ActsAs I A T)
    (hm : SmoothsAs I preconditioner m) : task.system.Acts I T m := by
  obtain ⟨op, smoother, hop, hsmoother, hsystem⟩ := Task.system_of_read hread
  rw [hsystem]
  refine ⟨fun v => hA op hop v, fun r => ?_⟩
  cases preconditioner with
  | none =>
    cases hsmoother
    exact (hm r).symm ▸ .pure
  | some P =>
    obtain ⟨p, hp, hsome⟩ := Fault.bind_eq_ok hsmoother
    cases hsome
    exact hm p hp r

/-- So does one with a linear preconditioner. -/
theorem Task.acts_of_read {A : OperatorLike ℝ σ} {b guess : Datum ℝ} {options : Options ℝ}
    {maxIterations : Datum ℝ} {preconditioner : Option (OperatorLike ℝ σ)} {task : Task ℝ σ}
    (hread : Task.read A b guess options maxIterations preconditioner = .ok task)
    {T M : Vec ℝ task.unknowns →ₗ[ℝ] Vec ℝ task.unknowns} (hA : ActsAs I A T)
    (hM : PreconditionsAs I preconditioner M) : task.system.Acts I T M :=
  Task.acts_of_smooths hread hA hM.smoothsAs

end Descent.LinearSystem
