import Descent.Minimize.Conjugate
import Descent.Minimize.Newton
import Descent.Proofs.Run.Triple

/-!
# What is read of a minimization

Every method reads its settings and then its starting point, so what was read is known in the same
way for all of them.

* `Minimize.Task.setUp_eq_ok`: a task that was read comes from settings and a start that were read;
* `Minimize.Task.setUp_vector`, `Minimize.Task.setUp_again`: the task from a vector, and the one
  from another start of as many unknowns;
* `Minimize.Task.setUp_map`: what a change of the settings does to the task;
* `Conjugate.Options.settings_eq_ok`, `Newton.Options.settings_eq_ok`: the settings are what callers
  have set;
* `Minimize.account`: a minimization up to its report, of as many unknowns as were read;
  `Conjugate.publish`, `Newton.announce`: what is left to do after it.
  `minimizeConjugate_eq_account`, `minimizeNewton_eq_account`: together they are the minimization.
-/

namespace Descent

/-! ## Tasks -/

namespace Minimize.Task

variable {P : Nat → Type} {ρ α σ τ : Type} [Numeral α] {settings : Except Fault τ}
  {start : Datum α} {problem : τ → (n : Nat) → P n} {rule : τ → Nat → ρ} {budget : τ → Number α}
  {task : Task P ρ α}

/-- **What a task was set up from.** -/
theorem setUp_eq_ok (h : setUp settings start problem rule budget = .ok task) :
    ∃ s, settings = .ok s ∧ start.toVector "w0" = .ok task.start.toArray ∧
      task.problem = problem s task.unknowns ∧ task.rule = rule s task.unknowns ∧
      task.budget = (budget s).roundsUntil := by
  obtain ⟨s, hs, h⟩ := Fault.bind_eq_ok h
  obtain ⟨w, hw, h⟩ := Fault.bind_eq_ok h
  cases h
  exact ⟨s, hs, hw, rfl, rfl, rfl⟩

theorem size_of_setUp (h : setUp settings start problem rule budget = .ok task) {w : Array α}
    (hw : start.toVector "w0" = .ok w) : w.size = task.unknowns := by
  obtain ⟨_, -, hstart, -⟩ := setUp_eq_ok h
  cases hstart.symm.trans hw
  exact task.start.size_toArray

/-- The settings and the start are read one after the other. -/
theorem ofExcept_setUp : (Run.ofExcept (setUp settings start problem rule budget) :
      Run α σ (Task P ρ α)) = do
    let s ← Run.ofExcept settings
    let w ← Run.ofExcept (start.toVector "w0")
    return ⟨w.size, problem s w.size, rule s w.size, (budget s).roundsUntil, Vec.ofArray w⟩ := by
  simp only [setUp, Run.ofExcept_bind, Run.ofExcept_pure]

/-- A vector is read as itself. -/
theorem setUp_vector {n : Nat} (x : Vec α n) :
    setUp settings (.vector x.toArray) problem rule budget =
      settings >>= fun s => pure ⟨n, problem s n, rule s n, (budget s).roundsUntil, x⟩ := by
  obtain ⟨x, rfl⟩ := x
  rfl

/-- Only the entries of a start matter. -/
theorem setUp_of_toVector {w : Array α} (h : start.toVector "w0" = .ok w) :
    setUp settings start problem rule budget = setUp settings (.vector w) problem rule budget := by
  simp only [setUp, h]
  rfl

/-- The same settings with another start of as many unknowns. -/
theorem setUp_again (h : setUp settings start problem rule budget = .ok task)
    (x : Vec α task.unknowns) :
    setUp settings (.vector x.toArray) problem rule budget = .ok { task with start := x } := by
  obtain ⟨s, hs, -, hproblem, hrule, hbudget⟩ := setUp_eq_ok h
  rw [setUp_vector, hs, hproblem, hrule, hbudget]
  rfl

/-- A change of the settings that amounts to a change of the task. -/
theorem setUp_map {f : τ → τ} {g : Task P ρ α → Task P ρ α}
    (h : ∀ s n (w : Vec α n), g ⟨n, problem s n, rule s n, (budget s).roundsUntil, w⟩ =
      ⟨n, problem (f s) n, rule (f s) n, (budget (f s)).roundsUntil, w⟩) :
    setUp (f <$> settings) start problem rule budget =
      g <$> setUp settings start problem rule budget := by
  simp only [setUp, bind_map_left, map_bind, map_pure, h]

/-- The budget is the whole number that callers have set. -/
theorem budget_of_setUp {d : Datum α} {K : Nat}
    (h : setUp settings start problem rule budget = .ok task)
    (hset : ∀ s, settings = .ok s → d.toNumber = .ok (budget s))
    (hd : d.toNumber = .ok (.whole K)) : task.budget = K := by
  obtain ⟨s, hs, -, -, -, hbudget⟩ := setUp_eq_ok h
  have hwhole : budget s = .whole K := Except.ok.inj ((hset s hs).symm.trans hd)
  rw [hbudget, hwhole]
  rfl

end Minimize.Task

/-! ## Reports -/

namespace Minimize

variable {P : Nat → Type} {ε ρ α σ : Type} {read : Except Fault (Task P ρ α)}
  {solve : (task : Task P ρ α) → Run α σ (Report ε α task.unknowns)}

/-- What is read is solved, up to the report. -/
def account (read : Except Fault (Task P ρ α))
    (solve : (task : Task P ρ α) → Run α σ (Report ε α task.unknowns)) :
    Run α σ ((n : Nat) × Report ε α n) := do
  let task ← Run.ofExcept read
  let report ← solve task
  return ⟨task.unknowns, report⟩

theorem account_of_read {task : Task P ρ α} (h : read = .ok task) :
    account read solve = (⟨task.unknowns, ·⟩) <$> solve task := by
  rw [account, h, map_eq_pure_bind]
  rfl

end Minimize

variable {α σ : Type} [Numeral α]

/-! ## Conjugate gradients -/

namespace Conjugate

/-- The settings are what callers have set, within its bounds. -/
structure Options.Sets (options : Options α σ) (settings : Settings α σ) : Prop where
  maxIterations :
    options.maxIterations.insist "max_iterations" .nonNegative = .ok settings.maxIterations
  lineSearchThreshold :
    options.lineSearchThreshold.insist "line_search_threshold" .positive =
      .ok settings.lineSearchThreshold
  restartInterval :
    options.restartInterval.given?.mapM (·.insist "restart_interval" .atLeastOne) =
      .ok settings.restartInterval
  stop : options.stop.toCriterion = .ok settings.stop

theorem Options.settings_eq_ok {options : Options α σ} {settings : Settings α σ}
    (h : options.settings = .ok settings) : options.Sets settings := by
  obtain ⟨_, hbudget, h⟩ := Fault.bind_eq_ok h
  obtain ⟨_, hthreshold, h⟩ := Fault.bind_eq_ok h
  obtain ⟨_, hinterval, h⟩ := Fault.bind_eq_ok h
  obtain ⟨_, hstop, h⟩ := Fault.bind_eq_ok h
  cases h
  exact ⟨hbudget, hthreshold, hinterval, hstop⟩

/-- A minimization of as many unknowns as callers gave, up to its report. -/
def account (gradient : VectorField α σ) (start : Datum α) (options : Options α σ)
    (outside : Region α σ) (preconditioner : Option (Tensor α σ)) :
    Run α σ ((n : Nat) × Report α n) :=
  Minimize.account (Task.read gradient start options outside preconditioner) fun task =>
    solve task.problem task.rule task.budget task.start

/-- What a minimization does with its report: it writes a debug line, for which it needs the value
of the objective, and returns the point where it ended. -/
def publish (value : Option (ScalarField α σ)) {n : Nat} (report : Report α n) :
    Run α σ (Array α) := do
  if ← Run.debugEnabled .conjugate then
    let value ← match value with
      | some f => f report.point.toArray
      | none => pure Numeral.missing
    Run.debug .conjugate fun _ => report.line value
  return report.point.toArray

theorem minimizeConjugate_eq_account (value : Option (ScalarField α σ)) (gradient : VectorField α σ)
    (start : Datum α) (options : Options α σ) (outside : Region α σ)
    (preconditioner : Option (Tensor α σ)) :
    minimizeConjugate value gradient start options outside preconditioner =
      account gradient start options outside preconditioner >>= fun r => publish value r.2 := by
  simp only [minimizeConjugate, account, Minimize.account, bind_assoc, pure_bind]
  rfl

/-- What is done with a task once it has been read. -/
theorem minimizeConjugate_of_read {gradient : VectorField α σ} {start : Datum α}
    {options : Options α σ} {outside : Region α σ} {preconditioner : Option (Tensor α σ)}
    {task : Task α σ}
    (hread : Task.read gradient start options outside preconditioner = .ok task)
    (value : Option (ScalarField α σ)) :
    minimizeConjugate value gradient start options outside preconditioner =
      solve task.problem task.rule task.budget task.start >>= publish value := by
  rw [minimizeConjugate_eq_account, account, Minimize.account_of_read hread, bind_map_left]

end Conjugate

/-! ## Truncated Newton steps -/

namespace Newton

/-- The settings are what callers have set, within its bounds. -/
structure Options.Sets (options : Options α σ) (settings : Settings α σ) : Prop where
  maxIterations :
    options.maxIterations.insist "max_iterations" .nonNegative = .ok settings.maxIterations
  innerMaxIterations :
    options.innerMaxIterations.given?.mapM (·.insist "inner_max_iterations" .atLeastOne) =
      .ok settings.innerMaxIterations
  forcing : options.forcing.insistInUnit "forcing" = .ok settings.forcing
  lineSearchThreshold :
    options.lineSearchThreshold.insistInUnit "line_search_threshold" =
      .ok settings.lineSearchThreshold
  dampingFactor : options.dampingFactor.insistInUnit "damping_factor" = .ok settings.dampingFactor
  stop : options.stop.toCriterion = .ok settings.stop

theorem Options.settings_eq_ok {options : Options α σ} {settings : Settings α σ}
    (h : options.settings = .ok settings) : options.Sets settings := by
  obtain ⟨_, hbudget, h⟩ := Fault.bind_eq_ok h
  obtain ⟨_, hcap, h⟩ := Fault.bind_eq_ok h
  obtain ⟨_, hforcing, h⟩ := Fault.bind_eq_ok h
  obtain ⟨_, hthreshold, h⟩ := Fault.bind_eq_ok h
  obtain ⟨_, hdamping, h⟩ := Fault.bind_eq_ok h
  obtain ⟨_, hstop, h⟩ := Fault.bind_eq_ok h
  cases h
  exact ⟨hbudget, hcap, hforcing, hthreshold, hdamping, hstop⟩

/-- A minimization of as many unknowns as callers gave, up to its report. -/
def account (gradient : VectorField α σ) (hessian : Tensor α σ) (start : Datum α)
    (outside : Region α σ) (options : Options α σ) (preconditioner : Option (Tensor α σ)) :
    Run α σ ((n : Nat) × Report α n) :=
  Minimize.account (Task.read gradient hessian start outside options preconditioner) fun task =>
    solve task.problem task.rule task.budget task.start

/-- What a minimization does after its last step: it writes a debug line and returns the point where
it ended. -/
def announce (r : (n : Nat) × Report α n) : Run α σ (Array α) := do
  Run.debug .newton fun _ => r.2.line
  return r.2.point.toArray

theorem minimizeNewton_eq_account (gradient : VectorField α σ) (hessian : Tensor α σ)
    (start : Datum α) (outside : Region α σ) (options : Options α σ)
    (preconditioner : Option (Tensor α σ)) :
    minimizeNewton gradient hessian start outside options preconditioner =
      account gradient hessian start outside options preconditioner >>= announce := by
  simp only [minimizeNewton, account, Minimize.account, announce, bind_assoc, pure_bind]

/-- What is done with a task once it has been read. -/
theorem minimizeNewton_of_read {gradient : VectorField α σ} {hessian : Tensor α σ}
    {start : Datum α} {outside : Region α σ} {options : Options α σ}
    {preconditioner : Option (Tensor α σ)} {task : Task α σ}
    (hread : Task.read gradient hessian start outside options preconditioner = .ok task) :
    minimizeNewton gradient hessian start outside options preconditioner =
      solve task.problem task.rule task.budget task.start >>= fun report =>
        announce ⟨task.unknowns, report⟩ := by
  rw [minimizeNewton_eq_account, account, Minimize.account_of_read hread, bind_map_left]

end Newton

end Descent
