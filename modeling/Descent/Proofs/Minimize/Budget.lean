import Descent.Proofs.Minimize.Outer
import Descent.Proofs.Minimize.Work
import Descent.Scalar.Double

/-!
# The budgets of the minimizers

Both minimizers end within their budget, whatever their functions do. With a budget of `K`

* a minimization by conjugate gradients accepts at most `K` steps and makes at most `2 K - 1`
  searches (`Conjugate.Task.Bounded`);
* a minimization by truncated Newton steps makes at most `K` inner solves and `2 K` searches
  (`Newton.Task.Bounded`);
* the number of evaluations of the gradient that a minimization reports is the number of those it
  made (`Run.Accounts`, `Conjugate.record_counts`, `Newton.account_counts`). To speak of them, the
  callers' state tells how often the gradient has been called (`Metered`).

`minimizers_bounded` is all of this together.
-/

namespace Descent

variable {α σ : Type} [Numeral α]

/-! ## Functions that count -/

/-- The run makes none of the calls that are counted, and its results have `Q`. -/
def Run.CallsNone {α σ β : Type} (calls : σ → Nat) (run : Run α σ β) (Q : β → Prop) : Prop :=
  ∀ k, run.Keeps (callsMade calls k) Q

/-- Neither a tensor nor its operators make a call. -/
def Tensor.CallsNone (calls : σ → Nat) (tensor : Tensor α σ) : Prop :=
  ∀ {n : Nat} (x : Vec α n), (tensor.operatorAt x).CallsNone calls fun op =>
    ∀ {m : Nat} (v : Vec α m), (op.apply v).CallsNone calls fun _ => True

/-- Asking a criterion makes no call. -/
def CriterionLike.CallsNone (calls : σ → Nat) (stop : CriterionLike α σ) : Prop :=
  ∀ c, stop.toCriterion = .ok c → ∀ {n : Nat} (g : Vec α n) (k : Nat),
    (c.holds g (.whole k)).CallsNone calls fun _ => True

/-- The callers' state tells how often the gradient has been called, however the calls have ended,
and nothing else changes that number. -/
structure Metered (calls : σ → Nat) (gradient : VectorField α σ) (outside : Region α σ)
    (preconditioner : Option (Tensor α σ)) (stop : CriterionLike α σ) : Prop where
  gradient : ∀ x, (gradient x).AddsOne (callsMade calls)
  outside : ∀ x, (outside x).CallsNone calls fun _ => True
  preconditioner : ∀ tensor ∈ preconditioner, tensor.CallsNone calls
  stop : stop.CallsNone calls

section

variable {calls : σ → Nat} {value : Option (ScalarField α σ)} {gradient : VectorField α σ}
  {hessian : Tensor α σ} {start : Datum α} {outside : Region α σ}
  {preconditioner : Option (Tensor α σ)}

/-- What follows a call of the gradient is a reading of its result. -/
theorem VectorField.valueAt_addsOne {f : VectorField α σ}
    (h : ∀ x, (f x).AddsOne (callsMade calls)) (base : Nat) (name : String) {n : Nat}
    (x : Vec α n) : (f.valueAt name x).AddsOne fun j => callsMade calls (base + j) :=
  ((h x.toArray).bind fun _ _ => .ofExcept fun _ _ => trivial).shift base

/-- A run that ends with a report and `finish` with that report: however it ends, it makes as many
calls as are reported, and at most `bound`. -/
def Run.Accounts {α σ β γ : Type} (calls : σ → Nat) (bound : Nat) (account : Run α σ β)
    (finish : β → Run α σ γ) (reported : β → Nat) (session : Session α σ) : Prop :=
  match (account >>= finish).run session with
  | .ok x session' =>
    ∃ r session₁, account.run session = .ok r session₁ ∧ (finish r).run session₁ = .ok x session' ∧
      calls session'.caller = calls session.caller + reported r ∧ reported r ≤ bound
  | .error _ session' => calls session'.caller ≤ calls session.caller + bound

omit [Numeral α] in
/-- A run whose report counts the calls accounts for them, if it makes none after its report. -/
theorem Run.Counts.accounts {β γ : Type} {bound : Nat} {account : Run α σ β}
    {finish : β → Run α σ γ} {reported : β → Nat}
    (h : ∀ base, account.Counts (fun j => callsMade calls (base + j)) bound 0 reported)
    (hfinish : ∀ r, (finish r).CallsNone calls fun _ => True) (session : Session α σ) :
    account.Accounts calls bound finish reported session := by
  have haccount := h (calls session.caller) session rfl
  unfold Run.Accounts
  rw [EStateM.run_bind]
  cases hr : account.run session with
  | error fault session₁ =>
    rw [hr] at haccount
    obtain ⟨j, hj, hcalls⟩ := haccount
    exact (Nat.le_of_eq hcalls).trans (Nat.add_le_add_left hj _)
  | ok r session₁ =>
    rw [hr] at haccount
    obtain ⟨hcalls, hbound⟩ := haccount
    have hrest := hfinish r _ session₁ hcalls
    cases hf : (finish r).run session₁ with
    | error fault session' =>
      rw [hf] at hrest
      simp only [hf]
      exact (Nat.le_of_eq hrest).trans (Nat.add_le_add_left hbound _)
    | ok x session' =>
      rw [hf] at hrest
      simp only [hf]
      exact ⟨r, session₁, rfl, hf, hrest.1, hbound⟩

/-! ## Conjugate gradients -/

namespace Conjugate

/-- A minimization ends, and its searches and accepted steps are within a budget. -/
structure Task.Bounded (task : Task α σ) (K : Nat) : Prop where
  /-- Every minimization that starts comes to an iteration in which it ends. -/
  ends : ∀ session first session₁,
    (opening task.problem task.start).run session = .ok first session₁ →
      ∃ searches s session', task.Reaches session searches s session' ∧
        Run.EndsIn (turn task.problem task.rule K) s session'
          ((solve task.problem task.rule K task.start).run session)
  /-- The searches up to the end of an iteration, also of the last one. -/
  searches : ∀ session searches s session', task.Reaches session searches s session' →
    searches.length ≤ 2 * K - 1 ∧ (s.iterations < K → searches.length + 1 ≤ 2 * K - 1) ∧
      ∀ r session₂, (turn task.problem task.rule K s).run session' = .ok r session₂ →
        (searches ++ r.events).length ≤ 2 * K - 1
  /-- The accepted steps are counted as iterations. -/
  steps : ∀ session searches s session', task.Reaches session searches s session' →
    (stepsOf searches).length = s.iterations ∧ s.iterations ≤ K
  /-- A minimization does not go on after two searches in a row without progress. -/
  progress : ∀ session searches s session', task.Reaches session searches s session' →
    searches.IsChain fun first second => first.moved = true ∨ second.moved = true

theorem Task.bounded (task : Task α σ) : task.Bounded task.budget where
  ends session first session₁ hopening := task.exists_last hopening
  searches session searches s session' hreaches := by
    have hbounded := hreaches.bounded
    have hlength := hbounded.length_le
    refine ⟨by omega, hbounded.length_lt, fun r session₂ hrun => ?_⟩
    have hleft := ((turn_descends task.problem task.rule task.budget s).of_ok trivial hrun).2
    rw [List.length_append]
    omega
  steps session searches s session' hreaches :=
    ⟨hreaches.bounded.length_steps, hreaches.bounded.within⟩
  progress session searches s session' hreaches := hreaches.bounded.alternate

/-- What was read from callers counts the calls of their gradient. -/
theorem Task.counts_of_read {options : Options α σ} {task : Task α σ}
    (h : Metered calls gradient outside preconditioner options.stop)
    (hread : Task.read gradient start options outside preconditioner = .ok task) (base : Nat) :
    task.problem.Counts fun j => callsMade calls (base + j) := by
  obtain ⟨settings, hsettings, -, hproblem, -⟩ := Minimize.Task.setUp_eq_ok hread
  rw [hproblem]
  refine ⟨fun x => VectorField.valueAt_addsOne h.gradient base _ x, fun x g k => ?_,
    fun x k => h.outside x.toArray (base + k),
    fun g count k => h.stop _ (Options.settings_eq_ok hsettings).stop g count (base + k)⟩
  refine smooth_keeps (S := fun _ => True) (fun tensor htensor m y _ => ?_) x g trivial
  exact (h.preconditioner tensor htensor y (base + k)).mono fun op hop p v => hop v (base + k)

/-- A recorded minimization makes as many evaluations as it reports. -/
theorem record_counts {options : Options α σ} {K : Nat} {I : Nat → Invariant α σ}
    (h : ∀ task, Task.read gradient start options outside preconditioner = .ok task →
      task.problem.Counts I)
    (hbudget : options.maxIterations.toNumber = .ok (.whole K)) :
    (record gradient start options outside preconditioner).Counts I (evaluationBound K) 0 fun r =>
      r.2.report.evaluations := by
  refine .check (Nat.zero_le _) fun task hread => ?_
  rw [Task.budget_of_read hbudget hread]
  have hsolve := solve_counts (h task hread) task.rule K task.start
  rw [solve_eq_courseFrom] at hsolve
  exact hsolve.of_map.bind (Nat.le_refl _) fun course hcourse => .pure rfl hcourse

/-- The debug line makes no call, as long as the value of the objective can be computed without. -/
theorem announce_callsNone (hvalue : ∀ f ∈ value, ∀ x, (f x).CallsNone calls fun _ => True)
    (r : Record α) : (announce value r).CallsNone calls fun _ => True := by
  intro k
  refine .bind .debugEnabled fun enabled _ => .ite (fun _ => ?_) fun _ => .pure trivial
  cases value with
  | none =>
    refine .bind (R := fun _ => True) (.pure trivial) fun _ _ => ?_
    exact .bind .debug fun _ _ => .pure trivial
  | some f => exact .bind (hvalue f rfl _ k) fun _ _ => .bind .debug fun _ _ => .pure trivial

end Conjugate

/-! ## Truncated Newton steps -/

namespace Newton

/-- A minimization ends, and its inner solves and searches are within a budget. -/
structure Task.Bounded (task : Task α σ) (K : Nat) : Prop where
  /-- Every minimization that starts comes to an outer iteration in which it ends. -/
  ends : ∀ session gradient session₁,
    (task.problem.gradient task.start).run session = .ok gradient session₁ →
      ∃ outers s session', task.Reaches session outers s session' ∧
        Run.EndsIn (turn task.problem task.rule K) s session'
          ((solve task.problem task.rule K task.start).run session)
  /-- The outer iterations, each with one inner solve, up to the end of one, also of the last one.
  -/
  solves : ∀ session outers s session', task.Reaches session outers s session' →
    outers.length = s.iterations ∧ s.iterations ≤ K ∧
      ∀ r session₂, (turn task.problem task.rule K s).run session' = .ok r session₂ →
        (outers ++ r.events).length ≤ K
  /-- The searches up to the end of an outer iteration. -/
  searches : ∀ session outers s session', task.Reaches session outers s session' →
    ∀ r session₂, (turn task.problem task.rule K s).run session' = .ok r session₂ →
      ((outers ++ r.events).flatMap (·.tries.trials)).length ≤ 2 * K

theorem Task.bounded (task : Task α σ) : task.Bounded task.budget := by
  have hsolves {session outers s session'} (hreaches : task.Reaches session outers s session')
      {r session₂} (hrun : (turn task.problem task.rule task.budget s).run session' =
        .ok r session₂) : (outers ++ r.events).length ≤ task.budget := by
    obtain ⟨hlength, hle⟩ := hreaches.bounded
    have hleft : _ ≤ task.budget - s.iterations :=
      ((turn_descends task.problem task.rule task.budget s).of_ok trivial hrun).2
    rw [List.length_append]
    omega
  refine ⟨fun session gradient session₁ hgradient => task.exists_last hgradient,
    fun session outers s session' hreaches => ⟨hreaches.bounded.1, hreaches.bounded.2,
      fun r session₂ hrun => hsolves hreaches hrun⟩,
    fun session outers s session' hreaches r session₂ hrun => ?_⟩
  have htwo : ∀ k ∈ (outers ++ r.events).map fun outer => outer.tries.trials.length, k ≤ 2 := by
    rintro k hk
    obtain ⟨outer, -, rfl⟩ := List.mem_map.1 hk
    exact outer.tries.length_trials_le
  have hsum := List.sum_le_card_nsmul _ 2 htwo
  rw [List.length_map, smul_eq_mul] at hsum
  have := hsolves hreaches hrun
  rw [List.length_flatMap]
  omega

/-- What was read from callers counts the calls of their gradient. -/
theorem Task.counts_of_read {options : Options α σ} {task : Task α σ}
    (h : Metered calls gradient outside preconditioner options.stop)
    (hhessian : hessian.CallsNone calls)
    (hread : Task.read gradient hessian start outside options preconditioner = .ok task)
    (base : Nat) : task.problem.Counts fun j => callsMade calls (base + j) := by
  obtain ⟨settings, hsettings, -, hproblem, -⟩ := Minimize.Task.setUp_eq_ok hread
  rw [hproblem]
  refine ⟨fun x => VectorField.valueAt_addsOne h.gradient base _ x, fun x k => ?_, fun x k => ?_,
    fun x k => h.outside x.toArray (base + k),
    fun g count k => h.stop _ (Options.settings_eq_ok hsettings).stop g count (base + k)⟩
  · exact .bind (hhessian x (base + k)) fun op hop => .pure fun j v => hop v (base + j)
  · cases preconditioner with
    | none => exact .pure nofun
    | some tensor =>
      refine .bind (h.preconditioner tensor rfl x (base + k)) fun op hop => .pure ?_
      intro map hmap j v
      cases hmap
      exact hop v (base + j)

/-- The budget is the whole number of iterations that callers have set. -/
theorem Task.budget_of_read {options : Options α σ} {task : Task α σ} {K : Nat}
    (hbudget : options.maxIterations.toNumber = .ok (.whole K))
    (hread : Task.read gradient hessian start outside options preconditioner = .ok task) :
    task.budget = K :=
  Minimize.Task.budget_of_setUp hread
    (fun _ hs => Datum.toNumber_of_insist (Options.settings_eq_ok hs).maxIterations) hbudget

/-- A minimization makes as many evaluations as it reports. -/
theorem account_counts {options : Options α σ} {K : Nat} {I : Nat → Invariant α σ}
    (h : ∀ task, Task.read gradient hessian start outside options preconditioner = .ok task →
      task.problem.Counts I)
    (hbudget : options.maxIterations.toNumber = .ok (.whole K)) :
    (account gradient hessian start outside options preconditioner).Counts I (evaluationBound K) 0
      fun r => r.2.evaluations := by
  refine .check (Nat.zero_le _) fun task hread => ?_
  dsimp only
  rw [Task.budget_of_read hbudget hread]
  refine .bind (solve_counts (h task hread) task.rule K task.start) (Nat.le_refl _)
    fun report hreport => ?_
  exact .pure rfl hreport

end Newton

/-! ## Both minimizers -/

/-- **The minimizers end within their budgets.** For a budget of `K` accepted steps or outer
iterations, a minimization by conjugate gradients makes at most `2 K - 1` searches and accepts at
most `K` steps, and one by truncated Newton steps makes at most `K` inner solves and `2 K` searches.
They report at most `1 + K + 120 (2 K - 1)` and `1 + 241 K` evaluations of the gradient, and have
called it as often as they report. -/
theorem minimizers_bounded {conjugate : Conjugate.Options α σ} {newton : Newton.Options α σ}
    {K : Nat} (hconjugate : conjugate.maxIterations.toNumber = .ok (.whole K))
    (hnewton : newton.maxIterations.toNumber = .ok (.whole K)) :
    (∀ task, Conjugate.Task.read gradient start conjugate outside preconditioner = .ok task →
      task.Bounded K) ∧
    (∀ task, Newton.Task.read gradient hessian start outside newton preconditioner = .ok task →
      task.Bounded K) ∧
    minimizeConjugate value gradient start conjugate outside preconditioner =
      Conjugate.record gradient start conjugate outside preconditioner >>=
        Conjugate.announce value ∧
    minimizeNewton gradient hessian start outside newton preconditioner =
      Newton.account gradient hessian start outside newton preconditioner >>= Newton.announce ∧
    (Conjugate.record gradient start conjugate outside preconditioner).Keeps Invariant.none
      (fun r => r.2.report.evaluations ≤ 1 + K + 120 * (2 * K - 1)) ∧
    (Newton.account gradient hessian start outside newton preconditioner).Keeps Invariant.none
      (fun r => r.2.evaluations ≤ 1 + 241 * K) ∧
    ∀ calls : σ → Nat,
      (Metered calls gradient outside preconditioner conjugate.stop →
        (∀ f ∈ value, ∀ x, (f x).CallsNone calls fun _ => True) → ∀ session,
          (Conjugate.record gradient start conjugate outside preconditioner).Accounts calls
            (1 + K + 120 * (2 * K - 1)) (Conjugate.announce value) (·.2.report.evaluations)
            session) ∧
      (Metered calls gradient outside preconditioner newton.stop → hessian.CallsNone calls →
        ∀ session,
          (Newton.account gradient hessian start outside newton preconditioner).Accounts calls
            (1 + 241 * K) Newton.announce (·.2.evaluations) session) := by
  refine ⟨fun task hread => ?_, fun task hread => ?_, minimizeConjugate_eq_record _ _ _ _ _ _,
    Newton.minimizeNewton_eq_account _ _ _ _ _ _, ?_, ?_, fun calls => ⟨fun h hvalue => ?_,
      fun h hhessian => ?_⟩⟩
  · exact Conjugate.Task.budget_of_read hconjugate hread ▸ task.bounded
  · exact Newton.Task.budget_of_read hnewton hread ▸ task.bounded
  · exact (Conjugate.record_counts (fun _ _ => .unmarked _) hconjugate).bounds
  · exact (Newton.account_counts (fun _ _ => .unmarked _) hnewton).bounds
  · refine Run.Counts.accounts (fun base => ?_) (Conjugate.announce_callsNone hvalue)
    exact Conjugate.record_counts (fun _ hread => Conjugate.Task.counts_of_read h hread base)
      hconjugate
  · refine Run.Counts.accounts (fun base => ?_) fun r k => .bind .debug fun _ _ => .pure trivial
    exact Newton.account_counts (fun _ hread => Newton.Task.counts_of_read h hhessian hread base)
      hnewton

end

section

/-- A function that counts its calls. -/
def tallied {α : Type} (f : Array α → Datum α) : VectorField α Nat := fun x => do
  modify fun s => { s with caller := s.caller + 1 }
  return f x

/-- The field `(y, -x)`, which is no gradient. -/
def whirl : VectorField Float Nat :=
  tallied fun x => .vector #[x.getD 1 0, -x.getD 0 0]

/-- A domain that contains no point at all. -/
def nowhere {α : Type} : Region α Nat := fun _ => return true

theorem metered_tallied {α : Type} [Numeral α] (f : Array α → Datum α) (tolerance : α) :
    Metered id (tallied f) nowhere none (.criterion (.gradientNorm tolerance)) where
  gradient _ _ _ hs := congrArg (· + 1) hs
  outside _ _ := .pure trivial
  preconditioner := nofun
  stop c hc _ _ _ _ := by
    cases hc
    exact .pure trivial

/-- Both minimizers in the whirl, for a budget of three and a domain without points. -/
theorem minimizers_bounded_whirl :
    (∃ task, Conjugate.Task.read whirl (.vector #[1, 1])
        { maxIterations := .number (.whole 3) } nowhere none = .ok task ∧ task.Bounded 3) ∧
    (∃ task, Newton.Task.read whirl (.constant (.operator .identity)) (.vector #[1, 1]) nowhere
        { maxIterations := .number (.whole 3) } none = .ok task ∧ task.Bounded 3) ∧
    (Conjugate.record whirl (.vector #[1, 1]) { maxIterations := .number (.whole 3) } nowhere
      none).Accounts id 604 (Conjugate.announce none) (·.2.report.evaluations) (.initial 0) ∧
    (Newton.account whirl (.constant (.operator .identity)) (.vector #[1, 1]) nowhere
      { maxIterations := .number (.whole 3) } none).Accounts id 724 Newton.announce
      (·.2.evaluations) (.initial 0) := by
  obtain ⟨hconjugate, hnewton, -, -, -, -, hcalls⟩ := @minimizers_bounded Float Nat _ none whirl
    (.constant (.operator .identity)) (.vector #[1, 1]) nowhere none
    { maxIterations := .number (.whole 3) } { maxIterations := .number (.whole 3) } 3 rfl rfl
  obtain ⟨hrecord, haccount⟩ := hcalls id
  have hidentity : (Tensor.constant (.operator .identity) : Tensor Float Nat).CallsNone id :=
    fun x _ => .pure fun v _ => .pure trivial
  refine ⟨?_, ?_, hrecord (metered_tallied _ _) nofun _,
    haccount (metered_tallied _ _) hidentity _⟩
  · cases hread : Conjugate.Task.read whirl (.vector #[1, 1])
      { maxIterations := .number (.whole 3) } nowhere none with
    | ok task => exact ⟨task, rfl, hconjugate task hread⟩
    | error fault =>
      have hok : (Conjugate.Task.read whirl (.vector #[1, 1])
        { maxIterations := .number (.whole 3) } nowhere none).isOk = true := by decide +kernel
      rw [hread] at hok
      cases hok
  · cases hread : Newton.Task.read whirl (.constant (.operator .identity)) (.vector #[1, 1]) nowhere
      { maxIterations := .number (.whole 3) } none with
    | ok task => exact ⟨task, rfl, hnewton task hread⟩
    | error fault =>
      have hok : (Newton.Task.read whirl (.constant (.operator .identity)) (.vector #[1, 1]) nowhere
        { maxIterations := .number (.whole 3) } none).isOk = true := by decide +kernel
      rw [hread] at hok
      cases hok

end

end Descent
