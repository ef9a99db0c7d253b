import Descent.Proofs.LinearSystem.Truncation
import Descent.Proofs.Minimize.Likeness

/-!
# Minimizations stopped and resumed

A minimization by truncated Newton steps carries nothing from one outer iteration to the next but
the point: stopped after any number of iterations and started again where it ended, it takes the
same course.

* `Newton.Answers`: what a problem answers whose functions have settled outcomes, and
  `Newton.Answers.solve`, the course that these answers determine. `Newton.Answers.solve_add`: a
  budget may be spent in two parts;
* `Newton.solve_settles`: a minimization takes the course that the answers of its problem determine;
* `minimizeNewton_settles`: so does one for callers.
-/

namespace Descent

namespace Newton

variable {α σ : Type} {n : Nat}

/-- What is answered at every point and gradient: the gradient, whether to stop, and the point that
an outer iteration leads to, if it makes progress. -/
structure Answers (α : Type) (n : Nat) where
  gradient : Vec α n → Except Fault (Vec α n)
  stop : Vec α n → Except Fault Bool
  step : Vec α n → Vec α n → Except Fault (Option (Vec α n))

namespace Answers

/-- Where at most `budget` outer iterations lead from a point with its gradient. -/
def after (a : Answers α n) : (budget : Nat) → (x g : Vec α n) → Except Fault (Vec α n)
  | 0, x, g => do
    let _ ← a.stop g
    return x
  | budget + 1, x, g => do
    if ← a.stop g then return x
    else
      match ← a.step x g with
      | none => return x
      | some y => a.after budget y (← a.gradient y)

/-- Where a minimization from a point ends. -/
def solve (a : Answers α n) (budget : Nat) (x : Vec α n) : Except Fault (Vec α n) := do
  a.after budget x (← a.gradient x)

variable {a : Answers α n} {x g : Vec α n}

/-- A run that is asked to stop, or makes no progress, stays where it is. -/
theorem after_eq_self (h : a.stop g = .ok true ∨ a.stop g = .ok false ∧ a.step x g = .ok none)
    (budget : Nat) : a.after budget x g = .ok x := by
  cases budget with
  | zero => rcases h with h | ⟨h, -⟩ <;> rw [after, h] <;> rfl
  | succ budget =>
    rcases h with h | ⟨h, hstep⟩
    · rw [after, h]
      rfl
    · rw [after, h]
      show (a.step x g >>= _) = _
      rw [hstep]
      rfl

/-- A run that cannot tell whether to stop ends in that fault. -/
theorem after_eq_error {fault : Fault} (h : a.stop g = .error fault) (budget : Nat) :
    a.after budget x g = .error fault := by
  cases budget <;> rw [after, h] <;> rfl

theorem after_succ_of_step {y : Vec α n} (h : a.stop g = .ok false)
    (hstep : a.step x g = .ok (some y)) (budget : Nat) :
    a.after (budget + 1) x g = a.solve budget y := by
  rw [after, h]
  show (a.step x g >>= _) = _
  rw [hstep]
  rfl

theorem after_succ_of_error {fault : Fault} (h : a.stop g = .ok false)
    (hstep : a.step x g = .error fault) (budget : Nat) :
    a.after (budget + 1) x g = .error fault := by
  rw [after, h]
  show (a.step x g >>= _) = _
  rw [hstep]
  rfl

theorem solve_of_gradient (hg : a.gradient x = .ok g) (budget : Nat) :
    a.solve budget x = a.after budget x g := by
  rw [solve, hg]
  rfl

/-- A run that stays where it is is started again there. -/
theorem after_bind_of_self {k : Nat} (hg : a.gradient x = .ok g) (h : a.after k x g = .ok x)
    (j : Nat) : a.after k x g >>= a.solve j = a.after j x g := by
  rw [h]
  exact solve_of_gradient hg j

theorem after_add (hg : a.gradient x = .ok g) (k j : Nat) :
    a.after (k + j) x g = a.after k x g >>= a.solve j := by
  induction k generalizing x g with
  | zero =>
    rw [Nat.zero_add]
    cases hstop : a.stop g with
    | error fault =>
      rw [after_eq_error hstop, after_eq_error hstop]
      rfl
    | ok holds =>
      have hself : a.after 0 x g = .ok x := by
        rw [after, hstop]
        rfl
      exact (after_bind_of_self hg hself j).symm
  | succ k ih =>
    cases hstop : a.stop g with
    | error fault =>
      rw [after_eq_error hstop, after_eq_error hstop]
      rfl
    | ok holds =>
      cases holds with
      | true =>
        have hself := after_eq_self (x := x) (.inl hstop)
        rw [after_bind_of_self hg (hself _), hself, hself]
      | false =>
        cases hstep : a.step x g with
        | error fault =>
          rw [Nat.succ_add, after_succ_of_error hstop hstep, after_succ_of_error hstop hstep]
          rfl
        | ok next =>
          cases next with
          | none =>
            have hself := after_eq_self (.inr ⟨hstop, hstep⟩)
            rw [after_bind_of_self hg (hself _), hself, hself]
          | some y =>
            rw [Nat.succ_add, after_succ_of_step hstop hstep, after_succ_of_step hstop hstep]
            cases hy : a.gradient y with
            | error fault =>
              rw [solve, solve, hy]
              rfl
            | ok h =>
              rw [solve_of_gradient hy, solve_of_gradient hy]
              exact ih hy

/-- **A budget may be spent in two parts**: the second one starts where the first one ended. -/
theorem solve_add (a : Answers α n) (k j : Nat) (x : Vec α n) :
    a.solve (k + j) x = a.solve k x >>= a.solve j := by
  cases hg : a.gradient x with
  | error fault =>
    rw [solve, solve, hg]
    rfl
  | ok g =>
    rw [solve_of_gradient hg, solve_of_gradient hg]
    exact after_add hg k j

end Answers

/-- The point that the searches of an outer iteration lead to, if they make progress. -/
def Tries.reached? (tries : Tries α n) : Option (Vec α n) :=
  if tries.last.moved then some tries.last.point else none

variable [Numeral α] {problem : Problem α σ n} {rule : Rule α} {a : Answers α n}
  {I : Invariant α σ} {on : Logging.Source → Bool}

/-- The answers are the outcomes of the functions of a problem. A criterion answers to the gradient
alone, whatever the number of iterations. -/
structure Problem.Settles (I : Invariant α σ) (on : Logging.Source → Bool)
    (problem : Problem α σ n) (rule : Rule α) (a : Answers α n) : Prop where
  gradient : ∀ x, (problem.gradient x).Settles I on (a.gradient x)
  stop : ∀ g k, (problem.stop g k).Settles I on (a.stop g)
  step : ∀ x g, (Tries.reached? <$> tries problem rule x g).Settles I on (a.step x g)

/-- A problem whose functions compare from any two sessions has answers. -/
theorem Problem.exists_settles
    (h : problem.Compare (.apart I on) (fun _ => True) problem)
    (hstop : ∀ g, ∃ e, ∀ k, (problem.stop g k).Settles I on e) (rule : Rule α) :
    ∃ a, problem.Settles I on rule a := by
  have hgradient x : ∃ e, (problem.gradient x).Settles I on e :=
    Run.exists_settles (h.gradient x trivial)
  have hstep x g : ∃ e, (Tries.reached? <$> tries problem rule x g).Settles I on e := by
    have hself := (tries_compares h rule (x := x) trivial g).mono fun _ _ ht => ht.1
    obtain ⟨e, he⟩ := Run.exists_settles hself
    exact ⟨Tries.reached? <$> e, he.map⟩
  choose gradient hgradient using hgradient
  choose stop hstop using hstop
  choose step hstep using hstep
  exact ⟨⟨gradient, stop, step⟩, hgradient, hstop, hstep⟩

theorem iterate_settles (h : problem.Settles I on rule a) : ∀ budget (s : State α n),
    ((·.point) <$> iterate problem rule budget s).Settles I on
      (a.after budget s.point s.gradient) := by
  intro budget
  induction budget with
  | zero =>
    intro s
    simp only [iterate, map_bind]
    refine .bind (h.stop s.gradient s.iterations) fun holds => ?_
    cases holds <;> exact .pure
  | succ budget ih =>
    intro s
    simp only [iterate, map_bind]
    refine .bind (h.stop s.gradient s.iterations) fun holds => ?_
    cases holds with
    | true => exact .pure
    | false =>
      simp only [Bool.false_eq_true, if_false, leg_eq_tries, bind_assoc, map_bind]
      refine .bind_of_map (h.step s.point s.gradient) fun tries => ?_
      unfold conclude Tries.reached?
      split
      · simp only [arrive, bind_assoc, pure_bind]
        exact .bind (h.gradient _) fun g => ih _
      · exact .pure

/-- **A minimization takes the course that the answers of its problem determine.** -/
theorem solve_settles (h : problem.Settles I on rule a) (budget : Nat) (start : Vec α n) :
    ((·.point) <$> solve problem rule budget start).Settles I on (a.solve budget start) := by
  simp only [solve, map_bind]
  exact .bind (h.gradient start) fun g => iterate_settles h budget _

/-- The options with another budget. -/
def Options.within (options : Options α σ) (K : Nat) : Options α σ :=
  { options with maxIterations := .number (.whole K) }

/-- The budget is all that the settings owe to it. -/
theorem Options.settings_within (options : Options α σ) (k : Nat) :
    (options.within k).settings =
      (fun s => { s with maxIterations := .whole k }) <$> (options.within 0).settings := by
  simp only [Options.settings, Options.within, LinearSystem.budget_insist, map_bind, map_pure]
  rfl

end Newton

/-! ## Minimizations for callers -/

section

variable {α σ : Type} [Numeral α] {I : Invariant α σ} {on : Logging.Source → Bool}
  {gradient : VectorField α σ} {hessian : Tensor α σ} {start : Datum α} {outside : Region α σ}
  {options : Newton.Options α σ} {preconditioner : Option (Tensor α σ)}

/-- A minimization of callers' functions whose answers are settled. -/
theorem minimizeNewton_settles {task : Newton.Task α σ} {a : Newton.Answers α task.unknowns}
    (hread : Newton.Task.read gradient hessian start outside options preconditioner = .ok task)
    (ha : task.problem.Settles I on task.rule a) :
    (minimizeNewton gradient hessian start outside options preconditioner).Settles I on
      (Vector.toArray <$> a.solve task.budget task.start) := by
  rw [Newton.minimizeNewton_of_read hread, map_eq_pure_bind]
  refine .bind_of_map (Newton.solve_settles ha task.budget task.start) fun report => ?_
  exact .bind (.debug _ _) fun _ => .pure

/-- The budget is all that what is read owes to the budget. -/
theorem Newton.Task.read_within_budget (k : Nat) :
    Task.read gradient hessian start outside (options.within k) preconditioner =
      (fun task => { task with budget := k }) <$>
        Task.read gradient hessian start outside (options.within 0) preconditioner := by
  rw [Task.read, Task.read, Options.settings_within]
  exact Minimize.Task.setUp_map fun _ _ _ => rfl

/-- **A minimization may be stopped and resumed.** -/
theorem minimizeNewton_resumed (hgradient : Run.Determined I on gradient)
    (hhessian : hessian.Determined I on) (houtside : Run.Determined I on outside)
    (hpreconditioner : ∀ tensor ∈ preconditioner, tensor.Determined I on)
    (hstop : options.stop.OnGradient I on) (k j : Nat) :
    ∃ e,
      (minimizeNewton gradient hessian start outside (options.within (k + j))
        preconditioner).Settles I on e ∧
      Run.Settles I on (do
        let x ← minimizeNewton gradient hessian start outside (options.within k) preconditioner
        minimizeNewton gradient hessian (.vector x) outside (options.within j) preconditioner)
        e := by
  cases hread : Newton.Task.read gradient hessian start outside (options.within 0)
    preconditioner with
  | error fault =>
    have hfault (k : Nat) : minimizeNewton gradient hessian start outside (options.within k)
        preconditioner = throw fault := by
      rw [minimizeNewton, Newton.Task.read_within_budget, hread]
      rfl
    refine ⟨.error fault, ?_, .bind_error ?_⟩
    · rw [hfault]
      exact .throw
    · rw [hfault]
      exact .throw
  | ok task =>
    have hbudget (k : Nat) : Newton.Task.read gradient hessian start outside (options.within k)
        preconditioner = .ok { task with budget := k } := by
      rw [Newton.Task.read_within_budget, hread]
      rfl
    obtain ⟨settings, hsettings, -, hproblem, -⟩ := Minimize.Task.setUp_eq_ok hread
    have hcriterion := (Newton.Options.settings_eq_ok hsettings).stop
    obtain ⟨a, ha⟩ : ∃ a, task.problem.Settles I on task.rule a := by
      rw [hproblem]
      exact Newton.Problem.exists_settles (Newton.Problem.posed_determined hgradient hhessian
        houtside hpreconditioner hstop.determined hcriterion _) (fun g => hstop _ hcriterion g) _
    refine ⟨Vector.toArray <$> a.solve (k + j) task.start,
      minimizeNewton_settles (hbudget (k + j)) ha, ?_⟩
    have hfirst := minimizeNewton_settles (hbudget k) ha
    rw [a.solve_add]
    cases hk : a.solve k task.start with
    | error fault =>
      rw [show a.solve _ _ = _ from hk] at hfirst
      exact .bind_error hfirst
    | ok y =>
      rw [show a.solve _ _ = _ from hk] at hfirst
      exact .bind_ok hfirst
        (minimizeNewton_settles (Minimize.Task.setUp_again (hbudget j) y) ha)

end

end Descent
