import Descent.Proofs.LinearSystem.Truncation
import Descent.Proofs.Minimize.Budget

/-!
# Runs within smaller budgets

A smaller budget cuts a minimization by conjugate gradients off, as it does with a solve of a linear
system, and changes nothing before that: its record is the beginning of that of the longer run.

* `Conjugate.Course.CutAt`: a course is the beginning of another one;
* `Conjugate.Cuts`: of two runs, the first returns such a beginning where the second returns, and
  whatever the functions of the problem keep that holds at its end holds at the end of the second.
  `Conjugate.course_cuts`: so does the loop within a smaller budget.
* `smaller_budget_truncates`: both methods for callers within two budgets, with the calls of the
  functions they were given.

The objective is evaluated for a debug line only, at the point where a minimization ends. A shorter
minimization ends elsewhere, and the objective may have no value there:
`not_smaller_budget_returns`.
-/

namespace Descent

namespace Conjugate

variable {α σ : Type} {n : Nat}

/-! ## Courses -/

/-- The point after `k` accepted steps, if there were as many. -/
def Course.iterateAt (c : Course α n) (k : Nat) : Option (Vec α n) :=
  (c.heads.find? (·.iterations = k)).map State.point

/-- The first course is the second one up to at most `k` accepted steps. -/
structure Course.CutAt (k : Nat) (short long : Course α n) : Prop where
  heads : short.heads <+: long.heads
  iterations : short.report.iterations = min long.report.iterations k
  point : long.iterateAt short.report.iterations = some short.report.point

/-- A course that starts with the search from a state. -/
structure Course.From (s : State α n) (c : Course α n) : Prop where
  head : ∃ later, c.heads = s :: later
  le : s.iterations ≤ c.report.iterations
  ended : c.iterateAt c.report.iterations = some c.report.point

section

variable {s t : State α n} {c short long : Course α n} {others earlier : List (State α n)}
  {limit : Nat}

/-- States with other numbers of accepted steps do not matter. -/
theorem Course.iterateAt_after {k : Nat} (h : ∀ e ∈ earlier, e.iterations ≠ k) :
    (c.after earlier).iterateAt k = c.iterateAt k := by
  have hnone : earlier.find? (·.iterations = k) = none := by
    simpa using h
  simp only [iterateAt, Course.after, List.find?_append, hnone, Option.none_or]

theorem Course.From.iterateAt_head (h : c.From s) : c.iterateAt s.iterations = some s.point := by
  obtain ⟨later, hheads⟩ := h.head
  simp [iterateAt, hheads]

/-- A course without an accepted step. -/
theorem Course.From.leaf (hiterations : t.iterations = s.iterations) (hpoint : t.point = s.point)
    (exit : Exit) : Course.From s ⟨s :: others, t.report exit⟩ where
  head := ⟨others, rfl⟩
  le := hiterations.ge
  ended := by simp [iterateAt, State.report, hiterations, hpoint]

/-- A course whose first step was accepted. -/
theorem Course.From.after (h : c.From t) (ht : t.iterations = s.iterations + 1)
    (hothers : ∀ e ∈ others, e.iterations = s.iterations) : (c.after (s :: others)).From s where
  head := ⟨others ++ c.heads, rfl⟩
  le := by
    have hle := h.le
    show s.iterations ≤ c.report.iterations
    omega
  ended := by
    have hle := h.le
    have hother : ∀ e ∈ s :: others, e.iterations ≠ c.report.iterations := by
      intro e he
      rcases List.mem_cons.1 he with rfl | he
      · omega
      · rw [hothers e he]
        omega
    exact (iterateAt_after hother).trans h.ended

/-- A course within the limit is all of itself. -/
theorem Course.From.cutAt_self (h : c.From s) (hle : c.report.iterations ≤ limit) :
    c.CutAt limit c :=
  ⟨List.prefix_refl _, (Nat.min_eq_left hle).symm, h.ended⟩

/-- A course cut off at its start. -/
theorem Course.From.cutAt_start (h : c.From s) :
    Course.CutAt s.iterations ⟨[s], s.report .budget⟩ c := by
  refine ⟨?_, (Nat.min_eq_right h.le).symm, h.iterateAt_head⟩
  obtain ⟨later, hheads⟩ := h.head
  exact ⟨later, hheads.symm⟩

theorem Course.CutAt.after (h : short.CutAt limit long)
    (hearlier : ∀ e ∈ earlier, e.iterations < short.report.iterations) :
    (short.after earlier).CutAt limit (long.after earlier) := by
  refine ⟨(List.prefix_append_right_inj earlier).2 h.heads, h.iterations, ?_⟩
  have hother : ∀ e ∈ earlier, e.iterations ≠ short.report.iterations :=
    fun e he => (hearlier e he).ne
  exact (Course.iterateAt_after hother).trans h.point

end

/-! ## Two runs, one of them cut off -/

/-- The functions of a problem keep an invariant. -/
def Problem.Kept (I : Invariant α σ) (problem : Problem α σ n) : Prop :=
  problem.Within I (fun _ => True) (fun _ _ => True) fun _ _ => True

/-- Where the second run returns a course, the first returns the beginning of it, and whatever the
functions keep that holds at its end holds at the end of the second. -/
def Cuts (problem : Problem α σ n) (limit : Nat) (first second : Run α σ (Course α n)) : Prop :=
  ∀ session long session₁, second.run session = .ok long session₁ →
    ∃ short session₂, first.run session = .ok short session₂ ∧ short.CutAt limit long ∧
      ∀ I, problem.Kept I → session₂.Has I → session₁.Has I

namespace Cuts

variable {problem : Problem α σ n} {limit : Nat} {first second : Run α σ (Course α n)}

theorem pure {short long : Course α n} (h : short.CutAt limit long) :
    Cuts problem limit (pure short) (pure long) := by
  intro session _ _ hrun
  cases hrun
  exact ⟨short, session, rfl, h, fun _ _ hI => hI⟩

/-- Two runs that begin alike. -/
theorem bind {β : Type} {run : Run α σ β} {Q : β → Prop} {next next' : β → Run α σ (Course α n)}
    (h : run.Keeps Invariant.none Q) (hnext : ∀ b, Q b → Cuts problem limit (next b) (next' b)) :
    Cuts problem limit (run >>= next) (run >>= next') := by
  intro session long session₁ hrun
  obtain ⟨b, session', hb, hrest⟩ := Run.bind_eq_ok hrun
  obtain ⟨short, session₂, hshort, hcut⟩ :=
    hnext b (h.of_ok trivial hb).2 session' long session₁ hrest
  refine ⟨short, session₂, ?_, hcut⟩
  rw [EStateM.run_bind, hb]
  exact hshort

/-- Both runs may end because the criterion holds. -/
theorem ask {c : Course α n} {stop : Run α σ Bool} (hc : c.CutAt limit c)
    (h : Cuts problem limit first second) :
    Cuts problem limit (do if ← stop then return c else first)
      (do if ← stop then return c else second) := by
  refine bind (Run.keeps_none stop) fun holds _ => ?_
  cases holds with
  | true => exact pure hc
  | false => exact h

/-- The same searches before both runs. -/
theorem after {earlier : List (State α n)} {k : Nat} (h : Cuts problem limit first second)
    (hsecond : second.Keeps Invariant.none fun c => k ≤ c.report.iterations) (hk : k ≤ limit)
    (hearlier : ∀ e ∈ earlier, e.iterations < k) :
    Cuts problem limit (do return (← first).after earlier)
      (do return (← second).after earlier) := by
  intro session c session₁ hrun
  obtain ⟨long, session', hlong, hlast⟩ := Run.bind_eq_ok hrun
  cases hlast
  obtain ⟨short, session₂, hshort, hcut, hleads⟩ := h session long session₁ hlong
  refine ⟨short.after earlier, session₂, ?_, hcut.after fun e he => ?_, hleads⟩
  · rw [EStateM.run_bind, hshort]
    rfl
  · have hle : k ≤ short.report.iterations := by
      rw [hcut.iterations]
      exact le_min (hsecond.of_ok trivial hlong).2 hk
    exact (hearlier e he).trans_le hle

/-- A run cut off where the other one goes on. -/
theorem start {s : State α n} {rest : Run α σ (Course α n)}
    (hfrom : rest.Keeps Invariant.none (Course.From s))
    (hkeeps : ∀ I, problem.Kept I → rest.Keeps I fun _ => True) :
    Cuts problem s.iterations (Pure.pure ⟨[s], s.report .budget⟩) rest := by
  intro session long session₁ hrun
  refine ⟨_, session, rfl, (hfrom.of_ok trivial hrun).2.cutAt_start, fun I hkept hI => ?_⟩
  exact ((hkeeps I hkept).of_ok hI hrun).1

end Cuts

/-! ## The loop -/

section

variable [Numeral α] {problem : Problem α σ n} {rule : Rule α}

/-- What the loop does in a round that the criterion does not end. -/
def pursue (problem : Problem α σ n) (rule : Rule α) (budget : Nat) (s : State α n) :
    Run α σ (Course α n) := do
  match ← leg problem rule s with
  | .accepted t => return (← course problem rule budget t).after [s]
  | .ended exit t => return ⟨[s], t.report exit⟩
  | .retry t =>
    if ← problem.stop t.gradient t.iterations then return ⟨[s, t], t.report .criterion⟩
    else
      match ← leg problem rule t with
      | .accepted u => return (← course problem rule budget u).after [s, t]
      | .ended exit u => return ⟨[s, t], u.report exit⟩
      | .retry u => return ⟨[s, t], u.report .noProgress⟩

theorem course_succ (problem : Problem α σ n) (rule : Rule α) (budget : Nat) (s : State α n) :
    course problem rule (budget + 1) s = (do
      if ← problem.stop s.gradient s.iterations then return ⟨[s], s.report .criterion⟩
      else pursue problem rule budget s) :=
  rfl

/-- How a search counts: only an accepted step is an iteration, and only it moves the point. -/
def Leg.Counted (s : State α n) : Leg α n → Prop
  | .accepted t => t.iterations = s.iterations + 1
  | .retry t | .ended _ t => t.iterations = s.iterations ∧ t.point = s.point

theorem leg_counted (problem : Problem α σ n) (rule : Rule α) (s : State α n) :
    (leg problem rule s).Keeps Invariant.none (Leg.Counted s) := by
  rw [leg_eq]
  cases haim : aim s with
  | none => exact .pure ⟨rfl, rfl⟩
  | some p =>
    obtain ⟨t, slope⟩ := p
    have ht : t.iterations = s.iterations ∧ t.point = s.point := by
      rcases aimed_eq haim with rfl | rfl
      · exact ⟨rfl, rfl⟩
      · exact ⟨rfl, rfl⟩
    refine .bind (Run.keeps_none _) fun found _ => ?_
    refine (settle_keeps problem rule t slope found).mono fun r hr => ?_
    cases hr with
    | accepted => exact congrArg (· + 1) ht.1
    | retry | ended => exact ht

theorem pursue_from {budget : Nat}
    (ih : ∀ t, (course problem rule budget t).Keeps Invariant.none (Course.From t))
    (s : State α n) : (pursue problem rule budget s).Keeps Invariant.none (Course.From s) := by
  refine .bind (leg_counted problem rule s) fun r hr => ?_
  cases r with
  | accepted t => exact .bind (ih t) fun c hc => .pure (hc.after hr nofun)
  | ended exit t => exact .pure (.leaf hr.1 hr.2 exit)
  | retry t =>
    refine .bind (Run.keeps_none _) fun holds _ => .ite (fun _ => ?_) fun _ => ?_
    · exact .pure (.leaf hr.1 hr.2 .criterion)
    · refine .bind (leg_counted problem rule t) fun r hr' => ?_
      cases r with
      | accepted u =>
        refine .bind (ih u) fun c hc => .pure (hc.after (hr'.trans (congrArg (· + 1) hr.1)) ?_)
        intro e he
        rw [List.mem_singleton.1 he]
        exact hr.1
      | ended exit u => exact .pure (.leaf (hr'.1.trans hr.1) (hr'.2.trans hr.2) exit)
      | retry u => exact .pure (.leaf (hr'.1.trans hr.1) (hr'.2.trans hr.2) .noProgress)

theorem course_from (problem : Problem α σ n) (rule : Rule α) : ∀ budget s,
    (course problem rule budget s).Keeps Invariant.none (Course.From s) := by
  intro budget
  induction budget with
  | zero =>
    intro s
    refine .bind (Run.keeps_none _) fun holds _ => .ite (fun _ => ?_) fun _ => ?_
    · exact .pure (.leaf rfl rfl .criterion)
    · exact .pure (.leaf rfl rfl .budget)
  | succ budget ih =>
    intro s
    rw [course_succ]
    refine .bind (Run.keeps_none _) fun holds _ => .ite (fun _ => ?_) fun _ => ?_
    · exact .pure (.leaf rfl rfl .criterion)
    · exact pursue_from ih s

theorem pursue_keeps {I : Invariant α σ} (h : problem.Kept I) (rule : Rule α) (budget : Nat)
    (s : State α n) : (pursue problem rule budget s).Keeps I fun _ => True := by
  have hcourse (t : State α n) : (course problem rule budget t).Keeps I fun _ => True := by
    have hiterate := iterate_keeps h rule budget t ⟨trivial, trivial⟩
    rw [iterate_eq_course] at hiterate
    exact hiterate.of_map.mono fun _ _ => trivial
  refine .bind (leg_keeps h rule ⟨trivial, trivial⟩) fun r _ => ?_
  cases r with
  | accepted t => exact .bind (hcourse t) fun _ _ => .pure trivial
  | ended exit t => exact .pure trivial
  | retry t =>
    refine .bind (h.stop t.gradient t.iterations) fun holds _ => .ite (fun _ => ?_) fun _ => ?_
    · exact .pure trivial
    · refine .bind (leg_keeps h rule ⟨trivial, trivial⟩) fun r _ => ?_
      cases r with
      | accepted u => exact .bind (hcourse u) fun _ _ => .pure trivial
      | ended exit u => exact .pure trivial
      | retry u => exact .pure trivial

/-- **A course within a smaller budget is the beginning of the longer one.** -/
theorem course_cuts (problem : Problem α σ n) (rule : Rule α) : ∀ K k s, k ≤ K →
    Cuts problem (s.iterations + k) (course problem rule k s) (course problem rule K s) := by
  have leaf {s t : State α n} {others : List (State α n)} {k : Nat} (exit : Exit)
      (ht : t.iterations = s.iterations) (hpoint : t.point = s.point) :
      Course.CutAt (s.iterations + k) ⟨s :: others, t.report exit⟩
        ⟨s :: others, t.report exit⟩ := by
    have hfrom : Course.From s ⟨s :: others, t.report exit⟩ := .leaf ht hpoint exit
    exact hfrom.cutAt_self (ht.le.trans (Nat.le_add_right _ _))
  intro K
  induction K with
  | zero =>
    intro k s hk
    obtain rfl : k = 0 := Nat.le_zero.1 hk
    exact .ask (leaf .criterion rfl rfl) (.pure (leaf .budget rfl rfl))
  | succ K ih =>
    intro k s hk
    rw [course_succ]
    cases k with
    | zero =>
      refine .ask (leaf .criterion rfl rfl) ?_
      exact .start (pursue_from (course_from problem rule K) s)
        fun I hkept => pursue_keeps hkept rule K s
    | succ k =>
      rw [course_succ]
      refine .ask (leaf .criterion rfl rfl) (.bind (leg_counted problem rule s) fun r hr => ?_)
      -- an accepted step leaves one iteration less of both budgets
      have haccepted (u : State α n) (hu : u.iterations = s.iterations + 1)
          {earlier : List (State α n)} (hearlier : ∀ e ∈ earlier, e.iterations = s.iterations) :
          Cuts problem (s.iterations + (k + 1))
            (do return (← course problem rule k u).after earlier)
            (do return (← course problem rule K u).after earlier) := by
        have hlimit : s.iterations + (k + 1) = u.iterations + k := by omega
        rw [hlimit]
        refine (ih k u (Nat.le_of_succ_le_succ hk)).after
          ((course_from problem rule K u).mono fun _ hc => hc.le) (Nat.le_add_right _ _) ?_
        intro e he
        rw [hearlier e he]
        omega
      cases r with
      | accepted t => exact haccepted t hr (by simp)
      | ended exit t => exact .pure (leaf exit hr.1 hr.2)
      | retry t =>
        refine .ask (leaf .criterion hr.1 hr.2) (.bind (leg_counted problem rule t) fun r hr' => ?_)
        cases r with
        | accepted u =>
          refine haccepted u (hr'.trans (congrArg (· + 1) hr.1)) ?_
          simp [hr.1]
        | ended exit u => exact .pure (leaf exit (hr'.1.trans hr.1) (hr'.2.trans hr.2))
        | retry u => exact .pure (leaf .noProgress (hr'.1.trans hr.1) (hr'.2.trans hr.2))

theorem courseFrom_cuts (problem : Problem α σ n) (rule : Rule α) {k K : Nat} (hk : k ≤ K)
    (start : Vec α n) :
    Cuts problem k (courseFrom problem rule k start) (courseFrom problem rule K start) := by
  refine .bind (Run.keeps_none _) fun gradient _ => .bind (Run.keeps_none _) fun smoothed _ => ?_
  have hcourse := course_cuts problem rule K k
    { point := start, gradient, smoothed
      product := Vec.dot gradient smoothed
      direction := -smoothed
      sinceRestart := 0
      previous := none
      iterations := 0
      evaluations := 1 } hk
  rwa [Nat.zero_add] at hcourse

end

/-! ## Minimizations for callers -/

/-- The first record is the second one up to at most `k` accepted steps. -/
def Record.CutAt {α : Type} (k : Nat) (short long : Record α) : Prop :=
  ∃ (n : Nat) (c c' : Course α n), short = ⟨n, c⟩ ∧ long = ⟨n, c'⟩ ∧ c.CutAt k c'

end Conjugate

/-- The options with another budget. -/
def Conjugate.Options.within {α σ : Type} [Scalar α] (options : Conjugate.Options α σ) (K : Nat) :
    Conjugate.Options α σ :=
  { options with maxIterations := .number (.whole K) }

/-- A list of calls begins with those made so far. -/
def callsSince {α σ ε : Type} (calls : σ → List ε) (made : List ε) : Invariant α σ :=
  fun _ caller => made <+: calls caller

section

variable {α σ ε : Type} [Numeral α] {calls : σ → List ε}

/-- The operators of a solve only add to a list of calls. -/
structure LinearSystem.AddsCalls (calls : σ → List ε) (A : OperatorLike α σ)
    (preconditioner : Option (OperatorLike α σ)) : Prop where
  operator : ∀ made, A.Kept (callsSince calls made)
  preconditioner : ∀ P ∈ preconditioner, ∀ made, P.Kept (callsSince calls made)

namespace Conjugate

variable {value : Option (ScalarField α σ)} {gradient : VectorField α σ} {start : Datum α}
  {options : Options α σ} {outside : Region α σ} {preconditioner : Option (Tensor α σ)}

/-- The functions of a minimization keep an invariant. -/
structure Kept (I : Invariant α σ) (gradient : VectorField α σ) (outside : Region α σ)
    (preconditioner : Option (Tensor α σ)) (stop : CriterionLike α σ) : Prop where
  gradient : Run.KeptOn I (fun _ => True) gradient
  outside : ∀ x, (outside x).Keeps I fun _ => True
  preconditioner : ∀ tensor ∈ preconditioner, tensor.KeptOn I fun _ => True
  stop : stop.Kept I fun _ _ => True

/-- What was read from callers keeps what their functions keep. -/
theorem Task.kept_of_read {I : Invariant α σ} {task : Task α σ}
    (hread : Task.read gradient start options outside preconditioner = .ok task)
    (h : Kept I gradient outside preconditioner options.stop) : task.problem.Kept I := by
  refine (Task.read_within (S := fun _ => True) (G := fun _ _ => True) hread (fun _ _ => trivial)
    (fun x hx => VectorField.valueAt_keeps h.gradient _ x hx) ?_ h.preconditioner h.stop).2
  intro x y _ _
  exact (h.outside y).mono fun _ _ _ => trivial

/-- The budget is all that the settings owe to it. -/
theorem Options.settings_within (options : Options α σ) (k K : Nat) :
    (options.within k).settings =
      (fun s => { s with maxIterations := .whole k }) <$> (options.within K).settings := by
  simp only [Options.settings, Options.within, LinearSystem.budget_insist, map_bind, map_pure]
  rfl

/-- The budget is all that what is read owes to the budget. -/
theorem Task.read_within_budget {K : Nat} {task : Task α σ} (k : Nat)
    (hread : Task.read gradient start (options.within K) outside preconditioner = .ok task) :
    Task.read gradient start (options.within k) outside preconditioner =
      .ok { task with budget := k } := by
  have hmap : Task.read gradient start (options.within k) outside preconditioner =
      (fun task => { task with budget := k }) <$>
        Task.read gradient start (options.within K) outside preconditioner := by
    rw [Task.read, Task.read, options.settings_within k K]
    exact Minimize.Task.setUp_map fun _ _ _ => rfl
  rw [hmap, hread]
  rfl

/-- **A minimization within a smaller budget is the beginning of the longer one.** -/
theorem record_cutAt {K k : Nat} (hk : k ≤ K) {session session₁ : Session α σ} {long : Record α}
    (hrun : (record gradient start (options.within K) outside preconditioner).run session =
      .ok long session₁) :
    ∃ short session₂,
      (record gradient start (options.within k) outside preconditioner).run session =
        .ok short session₂ ∧ short.CutAt k long ∧
      ∀ I, Kept I gradient outside preconditioner options.stop → session₂.Has I →
        session₁.Has I := by
  obtain ⟨task, hread, hrun⟩ := Run.check_eq_ok hrun
  obtain ⟨c, session', hcourse, hlast⟩ := Run.bind_eq_ok hrun
  cases hlast
  rw [Task.budget_of_read rfl hread] at hcourse
  obtain ⟨short, session₂, hshort, hcut, hleads⟩ :=
    courseFrom_cuts task.problem task.rule hk task.start session c session₁ hcourse
  refine ⟨⟨task.unknowns, short⟩, session₂, ?_, ⟨_, short, c, rfl, rfl, hcut⟩, fun I hkept => ?_⟩
  · rw [record, Task.read_within_budget k hread]
    show (courseFrom _ _ k _ >>= _).run session = _
    rw [EStateM.run_bind, hshort]
    rfl
  · exact hleads I (Task.kept_of_read hread hkept)

/-- If debug lines of minimizations are written, the objective has a value where this one ended. -/
def Record.Announceable (r : Record α) (value : Option (ScalarField α σ))
    (session : Session α σ) : Prop :=
  session.logging.isEnabled Logging.Source.conjugate.name Logging.Level.debug = true →
    ∀ f ∈ value, ∃ a session', (f r.2.report.point.toArray).run session = .ok a session'

/-- A minimization returns the point where it ended, unless the value of the objective there is
asked for and is not known. -/
theorem announce_of_announceable {r : Record α} {session : Session α σ}
    (h : r.Announceable value session) :
    ∃ session', (announce value r).run session = .ok r.2.report.point.toArray session' := by
  cases henabled : session.logging.isEnabled Logging.Source.conjugate.name Logging.Level.debug with
  | false => exact ⟨session, by simp [announce, publish, Run.debugEnabled, henabled]⟩
  | true =>
    cases value with
    | none =>
      obtain ⟨logging, hdebug⟩ :=
        Run.debug_run .conjugate (fun _ => r.2.report.line (Numeral.missing : α)) session
      exact ⟨{ session with logging }, by
        simp [announce, publish, Run.debugEnabled, henabled, hdebug, -bind_pure_comp]⟩
    | some f =>
      obtain ⟨a, session', ha⟩ := h henabled f rfl
      obtain ⟨logging, hdebug⟩ :=
        Run.debug_run .conjugate (fun _ => r.2.report.line a) session'
      exact ⟨{ session' with logging }, by
        simp [announce, publish, Run.debugEnabled, henabled, ha, hdebug, -bind_pure_comp]⟩

/-- What the objective keeps is kept to the end of a minimization. -/
theorem announce_keeps {I : Invariant α σ} (hvalue : ∀ f ∈ value, Run.KeptOn I (fun _ => True) f)
    (r : Record α) : (announce value r).Keeps I fun x => x = r.2.report.point.toArray := by
  refine .bind .debugEnabled fun enabled _ => .ite (fun _ => ?_) fun _ => .pure rfl
  cases value with
  | none =>
    refine .bind (R := fun _ => True) (.pure trivial) fun _ _ => ?_
    exact .bind .debug fun _ _ => .pure rfl
  | some f => exact .bind (hvalue f rfl _ trivial) fun _ _ => .bind .debug fun _ _ => .pure rfl

/-- The functions of a minimization only add to a list of calls; the objective does not even do
that. -/
structure AddsCalls (calls : σ → List ε) (value : Option (ScalarField α σ))
    (gradient : VectorField α σ) (outside : Region α σ) (preconditioner : Option (Tensor α σ))
    (stop : CriterionLike α σ) : Prop where
  functions : ∀ made, Kept (callsSince calls made) gradient outside preconditioner stop
  value : ∀ f ∈ value, ∀ made,
    Run.KeptOn (fun _ caller => calls caller = made) (fun _ => True) f

end Conjugate

/-- **A smaller budget only truncates the run.** Let a run within a budget of `K` iterations come to
an end, after `j` of them. A run within `k ≤ K` from the same session completes `min j k`, at the
states of the longer run and with the calls to operators, preconditioner, gradient, domain and
criterion at the beginning of those of the longer run, and ends at its iterate of that number. A
solve of a linear system returns that iterate; so does a minimization by conjugate gradients, unless
it writes a debug line and the objective has no value there. A longer minimization that returns has
come to its end; one that has may still fail over its own debug line. -/
theorem smaller_budget_truncates (calls : σ → List ε) {k K : Nat} (hk : k ≤ K) :
    (∀ (A : OperatorLike α σ) (b guess : Datum α) (long short : LinearSystem.Options α)
      (longCall shortCall : Datum α) (P : Option (OperatorLike α σ)),
      long.budget? longCall = some (.number (.whole K)) →
      short.budget? shortCall = some (.number (.whole k)) → short.tolerance = long.tolerance →
      LinearSystem.AddsCalls calls A P → ∀ session x session₁,
      (solveLinear A b guess long longCall P).run session = .ok x session₁ →
      ∃ r r' session₂ session₃ session₄,
        (LinearSystem.record A b guess long longCall P).run session = .ok r session₂ ∧
        x = r.2.point.toArray ∧
        (LinearSystem.record A b guess short shortCall P).run session = .ok r' session₃ ∧
        r'.CutAt k r ∧
        (solveLinear A b guess short shortCall P).run session =
          .ok r'.2.point.toArray session₄ ∧
        calls session₄.caller <+: calls session₁.caller) ∧
    (∀ (value : Option (ScalarField α σ)) (gradient : VectorField α σ) (start : Datum α)
      (options : Conjugate.Options α σ) (outside : Region α σ) (P : Option (Tensor α σ)),
      Conjugate.AddsCalls calls value gradient outside P options.stop → ∀ session,
      (∀ x session₁,
        (minimizeConjugate value gradient start (options.within K) outside P).run session =
          .ok x session₁ →
        ∃ r session₂,
          (Conjugate.record gradient start (options.within K) outside P).run session =
            .ok r session₂ ∧
          x = r.2.report.point.toArray ∧ calls session₁.caller = calls session₂.caller) ∧
      ∀ r session₂,
        (Conjugate.record gradient start (options.within K) outside P).run session =
          .ok r session₂ →
        ∃ r' session₃,
          (Conjugate.record gradient start (options.within k) outside P).run session =
            .ok r' session₃ ∧
          r'.CutAt k r ∧ calls session₃.caller <+: calls session₂.caller ∧
          (r'.Announceable value session₃ → ∃ session₄,
            (minimizeConjugate value gradient start (options.within k) outside P).run session =
              .ok r'.2.report.point.toArray session₄ ∧
            calls session₄.caller = calls session₃.caller)) := by
  constructor
  · intro A b guess long short longCall shortCall P hlong hshort htolerance hcalls session x
      session₁ hrun
    rw [solveLinear_eq_record] at hrun
    obtain ⟨r, session₂, hrecord, hannounce⟩ := Run.bind_eq_ok hrun
    obtain ⟨r', session₃, hrecord', hcut, hleads⟩ :=
      LinearSystem.record_cutAt htolerance hlong hshort hk hrecord
    have hprefix : session₂.Has (callsSince calls (calls session₃.caller)) :=
      hleads _ (hcalls.operator _) (fun P hP => hcalls.preconditioner P hP _) (List.prefix_refl _)
    obtain ⟨hprefix₁, hx⟩ := (LinearSystem.announce_yields r).keeps.of_ok hprefix hannounce
    obtain ⟨session₄, hannounce', hsame⟩ := (LinearSystem.announce_yields (I := fun _ caller =>
      calls caller = calls session₃.caller) r').exists_run (s := session₃) rfl
    refine ⟨r, r', session₂, session₃, session₄, hrecord, hx, hrecord', hcut, ?_, ?_⟩
    · rw [solveLinear_eq_record, EStateM.run_bind, hrecord']
      exact hannounce'
    · have hsame : calls session₄.caller = calls session₃.caller := hsame
      rw [hsame]
      exact hprefix₁
  · intro value gradient start options outside P hcalls session
    have hannounce (r : Conjugate.Record α) {x : Array α} {s s' : Session α σ}
        (h : (Conjugate.announce value r).run s = .ok x s') :
        calls s'.caller = calls s.caller ∧ x = r.2.report.point.toArray :=
      (Conjugate.announce_keeps (I := fun _ caller => calls caller = calls s.caller)
        (fun f hf => hcalls.value f hf _) r).of_ok rfl h
    refine ⟨fun x session₁ hrun => ?_, fun r session₂ hrecord => ?_⟩
    · rw [minimizeConjugate_eq_record] at hrun
      obtain ⟨r, session₂, hrecord, hlast⟩ := Run.bind_eq_ok hrun
      obtain ⟨hsame, hx⟩ := hannounce r hlast
      exact ⟨r, session₂, hrecord, hx, hsame⟩
    · obtain ⟨r', session₃, hrecord', hcut, hleads⟩ := Conjugate.record_cutAt hk hrecord
      have hprefix : session₂.Has (callsSince calls (calls session₃.caller)) :=
        hleads _ (hcalls.functions _) (List.prefix_refl _)
      refine ⟨r', session₃, hrecord', hcut, hprefix, fun h => ?_⟩
      obtain ⟨session₄, hlast⟩ := Conjugate.announce_of_announceable h
      refine ⟨session₄, ?_, (hannounce r' hlast).1⟩
      rw [minimizeConjugate_eq_record, EStateM.run_bind, hrecord']
      exact hlast

end

section

/-- A function that writes down where it is called. -/
def noted {α : Type} (f : Array α → Datum α) : VectorField α (List (Array α)) := fun x => do
  modify fun s => { s with caller := s.caller ++ [x] }
  return f x

theorem noted_keptOn {α : Type} (f : Array α → Datum α) (made : List (Array α)) :
    Run.KeptOn (callsSince id made) (fun _ => True) (noted f) := by
  intro x _ s hs
  have hs : made <+: s.caller := hs
  exact ⟨hs.trans (List.prefix_append _ _), trivial⟩

theorem Operator.function_kept {α σ : Type} [Numeral α] {I : Invariant α σ} {f : VectorField α σ}
    (h : Run.KeptOn I (fun _ => True) f) (size? : Option Int) :
    (Operator.function f size?).Kept I := by
  intro n v
  unfold Operator.apply
  refine .bind (fits_keeps _ n) fun _ _ => .bind (h _ trivial) fun d _ => ?_
  refine .bind (.ofExcept (Q := fun _ => True) fun _ _ => trivial) fun image _ => ?_
  split
  · exact .pure trivial
  · exact .throw

/-- The ellipse `diag (1, 2)`, which writes down where it is called. -/
def ellipse : VectorField Float (List (Array Float)) :=
  noted fun x => .vector #[x.getD 0 0, 2 * x.getD 1 0]

/-- A solve and a minimization in the ellipse, within two iterations and within one. -/
theorem smaller_budget_truncates_ellipse :
    (∃ x x' session₁ session₄,
      (solveLinear (.map ellipse) (.vector #[1, 1]) .nothing
        { maxIterations := .number (.whole 2) } .nothing none).run (.initial []) =
          .ok x session₁ ∧
      (solveLinear (.map ellipse) (.vector #[1, 1]) .nothing
        { maxIterations := .number (.whole 2) } (.number (.whole 1)) none).run (.initial []) =
          .ok x' session₄ ∧
      session₄.caller <+: session₁.caller) ∧
    ∃ x x' session₁ session₄,
      (minimizeConjugate none ellipse (.vector #[1, 1]) (Conjugate.Options.within {} 2)
        Region.everywhere none).run (.initial []) = .ok x session₁ ∧
      (minimizeConjugate none ellipse (.vector #[1, 1]) (Conjugate.Options.within {} 1)
        Region.everywhere none).run (.initial []) = .ok x' session₄ ∧
      session₄.caller <+: session₁.caller := by
  obtain ⟨hsolve, hminimize⟩ :=
    smaller_budget_truncates (α := Float) (id : List (Array Float) → _) (show 1 ≤ 2 by decide)
  constructor
  · obtain ⟨x, session₁, hrun⟩ := Run.returns_of_fault? (solveLinear (.map ellipse)
      (.vector #[1, 1]) .nothing { maxIterations := .number (.whole 2) } .nothing none)
      (.initial []) (by decide +kernel)
    have hcalls : LinearSystem.AddsCalls id (.map ellipse) none := by
      refine ⟨fun made op hop => ?_, nofun⟩
      cases hop
      exact Operator.function_kept (noted_keptOn _ made) none
    obtain ⟨r, r', _, _, session₄, -, -, -, -, hshort, hprefix⟩ :=
      hsolve (.map ellipse) (.vector #[1, 1]) .nothing { maxIterations := .number (.whole 2) }
        { maxIterations := .number (.whole 2) } .nothing (.number (.whole 1)) none rfl rfl rfl
        hcalls _ x session₁ hrun
    exact ⟨x, _, session₁, session₄, hrun, hshort, hprefix⟩
  · obtain ⟨x, session₁, hrun⟩ := Run.returns_of_fault? (minimizeConjugate none ellipse
      (.vector #[1, 1]) (Conjugate.Options.within {} 2) Region.everywhere none)
      (.initial []) (by decide +kernel)
    have hcalls : Conjugate.AddsCalls id none ellipse Region.everywhere none
        (Conjugate.Options.stop {}) := by
      refine ⟨fun made => ⟨noted_keptOn _ made, fun _ => .pure trivial, nofun, ?_⟩, nofun⟩
      intro c hc n g count
      cases hc
      exact .pure fun _ => trivial
    obtain ⟨hends, htruncates⟩ :=
      hminimize none ellipse (.vector #[1, 1]) {} Region.everywhere none hcalls (.initial [])
    obtain ⟨r, session₂, hrecord, -, hlast⟩ := hends x session₁ hrun
    obtain ⟨r', session₃, -, -, hprefix, hreturns⟩ := htruncates r session₂ hrecord
    obtain ⟨session₄, hshort, hsame⟩ := hreturns fun _ => nofun
    refine ⟨x, _, session₁, session₄, hrun, hshort, ?_⟩
    have hlast : session₁.caller = session₂.caller := hlast
    have hsame : session₄.caller = session₃.caller := hsame
    rw [hsame, hlast]
    exact hprefix

/-- A session in which all debug lines are written. -/
def Session.listening {α σ : Type} (caller : σ) : Session α σ :=
  { Session.initial caller with
    logging := { Logging.Registry.initial with
      loggers := Logging.Registry.initial.loggers.map fun l =>
        { l with level := Logging.Level.debug } } }

/-- The objective `x ^ 2`, which has a value near its minimum only. -/
def nearParabola : ScalarField Float Unit := fun x =>
  if x.getD 0 0 < 0.5 then return x.getD 0 0 * x.getD 0 0 else throw .outOfRange

/-- A minimization that returns within one step, but not within none: the objective has a value at
its minimum and none at the start, and a debug line is written. -/
theorem not_smaller_budget_returns :
    (minimizeConjugate (some nearParabola) (fun x => return .vector #[x.getD 0 0]) (.vector #[1])
      (Conjugate.Options.within {} 1) Region.everywhere none).fault? (.listening ()) = none ∧
    (minimizeConjugate (some nearParabola) (fun x => return .vector #[x.getD 0 0]) (.vector #[1])
      (Conjugate.Options.within {} 0) Region.everywhere none).fault? (.listening ()) =
        some .outOfRange := by
  decide +kernel

end

end Descent
