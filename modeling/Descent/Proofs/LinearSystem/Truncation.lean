import Descent.Proofs.Exact.Number
import Descent.Proofs.LinearSystem.Krylov
import Descent.Proofs.Minimize.Callers

/-!
# Solves within smaller budgets

A smaller budget cuts a solve off and changes nothing before that. From one session on, let a solve
within a budget of `K` iterations return. Within a budget of `k ≤ K` it returns as well, and its
record is the beginning of the longer one.

* `LinearSystem.Course.CutAt`: a course is the beginning of another one;
  `LinearSystem.course_cutAt`: so is the course within a smaller budget;
* `LinearSystem.System.LeadsTo`: whatever the maps of a system keep that holds of one session holds
  of another; the session where the shorter solve ends leads to the one where the longer one does;
* `LinearSystem.record_cutAt`: both of it for data as callers give them.
-/

namespace Descent

namespace LinearSystem

/-! ## Courses -/

section

variable {α σ : Type} {n : Nat} [Scalar α]

/-- The first course is the second one up to at most `k` completed iterations. -/
structure Course.CutAt (k : Nat) (short long : Course α n) : Prop where
  heads : short.heads = long.heads.take k
  iterations : (short.report 0).iterations = min (long.report 0).iterations k
  point : short.point = long.pointAt (short.report 0).iterations

/-- Whatever the maps of a system keep that holds of the first session holds of the second. -/
def System.LeadsTo (system : System α σ n) (s t : Session α σ) : Prop :=
  ∀ I, system.Kept I → s.Has I → t.Has I

variable {system : System α σ n} {tolerance : α} {session session₁ : Session α σ}

omit [Scalar α] in
/-- After all its iterations a course is at its end. -/
theorem Course.pointAt_min (c : Course α n) (k : Nat) :
    c.pointAt (min c.heads.length k) = c.pointAt k := by
  rcases Nat.le_total c.heads.length k with hle | hle
  · simp [pointAt, hle]
  · rw [Nat.min_eq_right hle]

omit [Scalar α] in
theorem Course.cutAt_iff {k : Nat} {short long : Course α n} :
    short.CutAt k long ↔ short.heads = long.heads.take k ∧ short.point = long.pointAt k := by
  have hcount (c : Course α n) : (c.report 0).iterations = c.heads.length := Nat.zero_add _
  have hlength (h : short.heads = long.heads.take k) :
      short.heads.length = min long.heads.length k := by
    rw [h, List.length_take, Nat.min_comm]
  constructor
  · intro h
    refine ⟨h.heads, ?_⟩
    rw [h.point, hcount, hlength h.heads, pointAt_min]
  · rintro ⟨hheads, hpoint⟩
    refine ⟨hheads, ?_, ?_⟩
    · rw [hcount, hcount, hlength hheads]
    · rw [hpoint, hcount, hlength hheads, pointAt_min]

theorem course_keeps {I : Invariant α σ} (h : system.Kept I) (budget : Nat) (s : State α n) :
    (course system tolerance budget s).Keeps I fun _ => True := by
  have hiterate := iterate_keeps h tolerance budget 0 s
  rw [iterate_eq_course] at hiterate
  exact hiterate.of_map

/-- A course starts at the state it was given. -/
theorem course_pointAt_zero {budget : Nat} {s : State α n} {c : Course α n}
    (hrun : (course system tolerance budget s).run session = .ok c session₁) :
    c.pointAt 0 = s.point := by
  cases budget with
  | zero =>
    cases hrun
    rfl
  | succ budget =>
    obtain ⟨r, session₂, -, hrun⟩ := Run.bind_eq_ok hrun
    cases r with
    | refused | last exit point residual =>
      cases hrun
      rfl
    | next t =>
      obtain ⟨c', session₃, -, hrun⟩ := Run.bind_eq_ok hrun
      cases hrun
      rfl

/-- **A course within a smaller budget is the beginning of the longer one.** -/
theorem course_cutAt : ∀ (K k : Nat) (s : State α n) (session : Session α σ) {long session₁},
    k ≤ K → (course system tolerance K s).run session = .ok long session₁ →
      ∃ short session₂, (course system tolerance k s).run session = .ok short session₂ ∧
        short.CutAt k long ∧ system.LeadsTo session₂ session₁ := by
  intro K
  induction K with
  | zero =>
    intro k s session long session₁ hk hrun
    obtain rfl : k = 0 := Nat.le_zero.1 hk
    cases hrun
    exact ⟨_, session, rfl, Course.cutAt_iff.2 ⟨rfl, rfl⟩, fun I _ hI => hI⟩
  | succ K ih =>
    intro k s session long session₁ hk hrun
    cases k with
    | zero =>
      refine ⟨_, session, rfl, Course.cutAt_iff.2 ⟨rfl, (course_pointAt_zero hrun).symm⟩, ?_⟩
      intro I hkept hI
      exact ((course_keeps hkept (K + 1) s).of_ok hI hrun).1
    | succ k =>
      obtain ⟨r, session', hstep, hrest⟩ := Run.bind_eq_ok hrun
      cases r with
      | refused =>
        cases hrest
        refine ⟨⟨[], s.point, s.residual, .curvature⟩, session₁, ?_, Course.cutAt_iff.2 ⟨rfl, rfl⟩,
          fun I _ hI => hI⟩
        rw [course, EStateM.run_bind, hstep]
        rfl
      | last exit point residual =>
        cases hrest
        refine ⟨⟨[s], point, residual, exit⟩, session₁, ?_,
          Course.cutAt_iff.2 ⟨by simp, by simp [Course.pointAt]⟩, fun I _ hI => hI⟩
        rw [course, EStateM.run_bind, hstep]
        rfl
      | next t =>
        obtain ⟨c, session'', hcourse, hlast⟩ := Run.bind_eq_ok hrest
        cases hlast
        obtain ⟨short, session₂, hshort, hcut, hleads⟩ :=
          ih k t session' (Nat.le_of_succ_le_succ hk) hcourse
        obtain ⟨hheads, hpoint⟩ := Course.cutAt_iff.1 hcut
        refine ⟨{ short with heads := s :: short.heads }, session₂, ?_,
          Course.cutAt_iff.2 ⟨congrArg (s :: ·) hheads, hpoint⟩, hleads⟩
        rw [course, EStateM.run_bind, hstep]
        simp only [EStateM.run_bind, hshort]
        rfl

/-- A solve within a smaller budget is the beginning of the longer one. -/
theorem courseFrom_cutAt {b guess : Vec α n} {k K : Nat} {long : Course α n} (hk : k ≤ K)
    (hrun : (courseFrom system b guess tolerance K).run session = .ok long session₁) :
    ∃ short session₂, (courseFrom system b guess tolerance k).run session = .ok short session₂ ∧
      short.CutAt k long ∧ system.LeadsTo session₂ session₁ := by
  obtain ⟨image, session', himage, hrest⟩ := Run.bind_eq_ok hrun
  simp only [courseFrom, EStateM.run_bind, himage]
  dsimp only at hrest
  split at hrest
  · cases hrest
    rename_i hdone
    rw [if_pos hdone]
    exact ⟨_, session₁, rfl, Course.cutAt_iff.2 ⟨by simp, rfl⟩, fun I _ hI => hI⟩
  · rename_i hgoes
    obtain ⟨smoothed, session'', hsmoothed, hrest⟩ := Run.bind_eq_ok hrest
    rw [if_neg hgoes]
    simp only [EStateM.run_bind, hsmoothed]
    exact course_cutAt K k _ session'' hk hrest

end

end LinearSystem

/-! ## Solves for callers -/

variable {α σ : Type} [Numeral α]

/-- The operator that is meant keeps an invariant. -/
def OperatorLike.Kept (I : Invariant α σ) (like : OperatorLike α σ) : Prop :=
  ∀ op, like.toOperator = .ok op → op.Kept I

namespace LinearSystem

/-- The budget that callers mean: the one given with the call or else the one of the options. -/
def Options.budget? (options : Options α) (maxIterations : Datum α) : Option (Datum α) :=
  maxIterations.given? <|> options.maxIterations.given?

/-- The first record is the second one up to at most `k` completed iterations. -/
def Record.CutAt (k : Nat) (short long : Record α) : Prop :=
  ∃ (n : Nat) (c c' : Course α n), short = ⟨n, c⟩ ∧ long = ⟨n, c'⟩ ∧ c.CutAt k c'

variable {A : OperatorLike α σ} {b guess maxIterations : Datum α} {options : Options α}
  {preconditioner : Option (OperatorLike α σ)} {task : Task α σ}

/-- What was read from callers keeps what their operators keep. -/
theorem Task.kept_of_read {I : Invariant α σ}
    (hread : Task.read A b guess options maxIterations preconditioner = .ok task)
    (hA : A.Kept I) (hpreconditioner : ∀ P ∈ preconditioner, P.Kept I) : task.system.Kept I := by
  obtain ⟨op, smoother, hop, hsmoother, hsystem⟩ := Task.system_of_read hread
  rw [hsystem]
  refine ⟨fun v => hA op hop v, fun map hmap r => ?_⟩
  cases preconditioner with
  | none =>
    cases hsmoother
    cases hmap
  | some P =>
    obtain ⟨p, hp, hsome⟩ := Fault.bind_eq_ok hsmoother
    cases hsome
    cases hmap
    exact hpreconditioner P rfl p hp r

/-- A whole number of iterations is a budget. -/
theorem budget_insist (K : Nat) :
    (Datum.number (.whole K) : Datum α).insist "max_iterations" .nonNegative =
      .ok (.whole K) := by
  have hadmits : (Number.whole K : Number α).admits .nonNegative = true := by
    simp [Number.admits, Number.isBelow]
  exact Datum.insist_of_admits hadmits _

/-- The budget is all that what is read owes to the budget. -/
theorem Task.read_of_budget {options' : Options α} {maxIterations' : Datum α} {K k : Nat}
    (htolerance : options'.tolerance = options.tolerance)
    (hK : options.budget? maxIterations = some (.number (.whole K)))
    (hk : options'.budget? maxIterations' = some (.number (.whole k)))
    (hread : Task.read A b guess options maxIterations preconditioner = .ok task) :
    task.budget = K ∧
      Task.read A b guess options' maxIterations' preconditioner =
        .ok { task with budget := k } := by
  obtain ⟨tolerance, h₁, hread⟩ := Fault.bind_eq_ok hread
  obtain ⟨op, h₂, hread⟩ := Fault.bind_eq_ok hread
  obtain ⟨smoother, h₃, hread⟩ := Fault.bind_eq_ok hread
  obtain ⟨rhs, h₄, hread⟩ := Fault.bind_eq_ok hread
  obtain ⟨start, h₅, hread⟩ := Fault.bind_eq_ok hread
  obtain ⟨budget, h₆, hread⟩ := Fault.bind_eq_ok hread
  rw [Options.budget?] at hK hk
  rw [hK, Option.getD_some, budget_insist] at h₆
  cases h₆
  cases hread
  refine ⟨rfl, ?_⟩
  unfold Task.read
  rw [htolerance, h₁, h₂, hk]
  simp only [h₃, h₄, h₅, bind, Except.bind]
  rw [Option.getD_some, budget_insist]
  rfl

/-- **A solve within a smaller budget is the beginning of the longer one**: it returns where the
longer one does, and whatever the operators keep that holds at its end holds at the end of the
longer one. -/
theorem record_cutAt {options' : Options α} {maxIterations' : Datum α} {K k : Nat}
    (htolerance : options'.tolerance = options.tolerance)
    (hK : options.budget? maxIterations = some (.number (.whole K)))
    (hk : options'.budget? maxIterations' = some (.number (.whole k))) (hle : k ≤ K)
    {session session₁ : Session α σ} {long : Record α}
    (hrun : (record A b guess options maxIterations preconditioner).run session =
      .ok long session₁) :
    ∃ short session₂,
      (record A b guess options' maxIterations' preconditioner).run session =
        .ok short session₂ ∧ short.CutAt k long ∧
      ∀ I, A.Kept I → (∀ P ∈ preconditioner, P.Kept I) → session₂.Has I → session₁.Has I := by
  obtain ⟨task, hread, hrun⟩ := Run.check_eq_ok hrun
  obtain ⟨hbudget, hread'⟩ := Task.read_of_budget htolerance hK hk hread
  obtain ⟨c, session', hcourse, hlast⟩ := Run.bind_eq_ok hrun
  cases hlast
  rw [hbudget] at hcourse
  obtain ⟨short, session₂, hshort, hcut, hleads⟩ := courseFrom_cutAt hle hcourse
  refine ⟨⟨task.unknowns, short⟩, session₂, ?_, ⟨_, short, c, rfl, rfl, hcut⟩, ?_⟩
  · rw [record, hread']
    show (courseFrom _ _ _ _ k >>= _).run session = _
    rw [EStateM.run_bind, hshort]
    rfl
  · intro I hA hpreconditioner
    exact hleads I (Task.kept_of_read hread hA hpreconditioner)

end LinearSystem

end Descent
