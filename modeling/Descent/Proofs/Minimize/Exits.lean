import Descent.Proofs.Minimize.Known

/-!
# How a minimization ends

What a minimization reports at its end is about the point that it returns, for functions that always
give the same answers.

* `Conjugate.Task.Ended`, `Newton.Task.Ended`: a minimization has ended at a point where the
  criterion holds, or with its budget spent, or after the steepest descent has led nowhere.
* `Conjugate.stay`, `Newton.stay`: a minimization from a point where the criterion holds;
  `Conjugate.solve_of_met`, `Newton.solve_of_met`.
* `minimizers_exit`: both minimizers, for data as callers give them.
-/

namespace Descent

/-! ## Conjugate gradients -/

namespace Conjugate

section

variable {α σ : Type} {n : Nat} [Numeral α] {I : Invariant α σ} {on : Logging.Source → Bool}
  {problem : Problem α σ n} {s : State α n}

/-! ## A start that is not left -/

/-- A minimization that stops where it starts. -/
def stay (problem : Problem α σ n) (start : Vec α n) : Run α σ (Report α n) := do
  let gradient ← problem.gradient start
  let _ ← problem.precondition start gradient
  let _ ← problem.stop gradient 0
  return ⟨start, gradient, 0, 1, .criterion⟩

/-- A loop whose criterion holds at its head goes no further. -/
theorem iterate_of_met {session session' : Session α σ}
    (h : (problem.stop s.gradient s.iterations).run session = .ok true session')
    (rule : Rule α) (budget : Nat) :
    (iterate problem rule budget s).run session = .ok (s.report .criterion) session' := by
  cases budget with
  | zero =>
    rw [iterate, EStateM.run_bind, h]
    rfl
  | succ budget =>
    rw [iterate, EStateM.run_bind, h]
    rfl

/-- **Where the criterion holds at the start, nothing is searched.** -/
theorem solve_of_met {start gradient smoothed : Vec α n}
    (hgradient : (problem.gradient start).Settles I on (.ok gradient))
    (hsmoothed : (problem.precondition start gradient).Settles I on (.ok smoothed))
    (hholds : (problem.stop gradient 0).Settles I on (.ok true)) (rule : Rule α) (budget : Nat)
    {session : Session α σ} (hsession : session.Meets I on) :
    ∃ session', session'.Meets I on ∧
      (stay problem start).run session = .ok ⟨start, gradient, 0, 1, .criterion⟩ session' ∧
      (solve problem rule budget start).run session =
        .ok ⟨start, gradient, 0, 1, .criterion⟩ session' := by
  obtain ⟨session₁, h₁, hrun₁⟩ := hgradient session hsession
  obtain ⟨session₂, h₂, hrun₂⟩ := hsmoothed session₁ h₁
  obtain ⟨session₃, h₃, hrun₃⟩ := hholds session₂ h₂
  refine ⟨session₃, h₃, ?_, ?_⟩
  · simp only [stay, EStateM.run_bind, hrun₁, hrun₂, hrun₃, Run.ending]
    rfl
  · simp only [solve, EStateM.run_bind, hrun₁, hrun₂, Run.ending]
    exact iterate_of_met hrun₃ rule budget

end

/-! ## Minimizations of what callers give -/

section

variable {α σ : Type} [Numeral α] {I : Invariant α σ} {on : Logging.Source → Bool} {task : Task α σ}
  {session session' : Session α σ} {report : Report α task.unknowns}

/-- Why a minimization from a session on has ended with a report, at a point where `smoothed` is the
preconditioned gradient. -/
inductive Task.Exits (I : Invariant α σ) (on : Logging.Source → Bool) (task : Task α σ)
    (session : Session α σ) (report : Report α task.unknowns) (smoothed : Vec α task.unknowns) :
    Prop
  | criterion (exit : report.exit = .criterion)
      (holds : (task.problem.stop report.gradient report.iterations).Settles I on (.ok true))
  | budget (exit : report.exit = .budget) (spent : report.iterations = task.budget)
  /-- Not even the steepest direction descends. -/
  | noDescent (exit : report.exit = .noDescent) (ascends : ¬-Vec.dot report.gradient smoothed < 0)
  /-- The last search has gone along the steepest direction and led nowhere. -/
  | noProgress {searches : List (Search α task.unknowns)} {search : Search α task.unknowns}
      {s : State α task.unknowns} {session₁ session₂ : Session α σ}
      (exit : report.exit = .noProgress)
      (reaches : task.Reaches session searches s session₁)
      (last : (turn task.problem task.rule task.budget s).run session₁ =
        .ok (.done (some search) report) session₂)
      (point : search.aimed.point = report.point)
      (direction : search.aimed.direction = -smoothed)
      (found : (seek task.problem task.rule search.aimed search.slope).Settles I on
        (.ok search.found))
      (stuck : search.aimed.stuck search.found.length = true)

/-- Where and why a minimization from a session on has ended. -/
structure Task.Ended (I : Invariant α σ) (on : Logging.Source → Bool) (task : Task α σ)
    (session : Session α σ) (report : Report α task.unknowns) (smoothed : Vec α task.unknowns) :
    Prop where
  gradient : (task.problem.gradient report.point).Settles I on (.ok report.gradient)
  preconditioned : (task.problem.precondition report.point report.gradient).Settles I on
    (.ok smoothed)
  /-- As many steps have been accepted on the way as iterations are reported. -/
  accepted : ∃ searches s session₁, task.Reaches session searches s session₁ ∧
    s.point = report.point ∧ (stepsOf searches).length = report.iterations
  exits : task.Exits I on session report smoothed

theorem ascends_of_aim {n : Nat} {s : State α n} (h : aim s = none) : ¬-s.product < 0 := by
  intro hneg
  simp only [aim] at h
  split at h
  · cases h
  · cases h

/-- **A minimization reports about the point where it ends.** -/
theorem Task.ended (h : task.problem.Determined I on) (hsession : session.Meets I on)
    (hrun : (solve task.problem task.rule task.budget task.start).run session =
      .ok report session') : ∃ smoothed, task.Ended I on session report smoothed := by
  have hopened := hrun
  rw [solve_eq_opening] at hopened
  obtain ⟨first, session₁, hopening, -⟩ := Run.bind_eq_ok hopened
  obtain ⟨searches, s, session₂, hreaches, hlast⟩ := task.exists_last hopening
  rw [hrun] at hlast
  obtain ⟨last, hlast⟩ := hlast.exists_done
  obtain ⟨hmeets, hknown⟩ := hreaches.known h hsession
  have hsound := hreaches.reached.sound
  have hsteps := hreaches.bounded.length_steps
  have hanswered := ((turn_answered h _ _ hknown).of_ok hmeets hlast).2
  generalize hround : Run.Round.done last report = round at hanswered
  cases hanswered with
  | criterion holds =>
    cases hround
    exact ⟨_, hknown.gradient, hknown.smoothed, ⟨_, _, _, hreaches, rfl, hsteps⟩,
      .criterion rfl holds⟩
  | budget spent =>
    cases hround
    exact ⟨_, hknown.gradient, hknown.smoothed, ⟨_, _, _, hreaches, rfl, hsteps⟩,
      .budget rfl (Nat.le_antisymm hreaches.bounded.within spent)⟩
  | noDescent haim =>
    cases hround
    refine ⟨_, hknown.gradient, hknown.smoothed, ⟨_, _, _, hreaches, rfl, hsteps⟩,
      .noDescent rfl ?_⟩
    have hascends := ascends_of_aim haim
    rwa [hsound.product] at hascends
  | @search t slope found leg haim hfound hleg settles =>
    cases settles with
    | accepted | retry => cases hround
    | ended hstuck hsince =>
      cases hround
      have ht := hknown.aimed haim
      have hsame : s.point = t.point ∧ s.iterations = t.iterations := by
        obtain rfl | rfl := aimed_eq haim <;> exact ⟨rfl, rfl⟩
      exact ⟨_, ht.gradient, ht.smoothed, ⟨_, _, _, hreaches, hsame.1, hsteps.trans hsame.2⟩,
        .noProgress rfl hreaches hlast rfl ((hsound.aimed haim).direction hsince) hfound hstuck⟩

variable {value : Option (ScalarField α σ)} {gradient : VectorField α σ} {start : Datum α}
  {options : Options α σ} {outside : Region α σ} {preconditioner : Option (Tensor α σ)}
  {criterion : Criterion α σ}

/-- **A minimization that is started again where the criterion holds stays there**, if the criterion
looks at the gradient only. -/
theorem minimizeConjugate_again {smoothed : Vec α task.unknowns} {x : Array α}
    (hread : Task.read gradient start options outside preconditioner = .ok task)
    (hsession : session.Meets I on) (hended : task.Ended I on session report smoothed)
    (hpublish : (publish value report).Settles I on (.ok x))
    (hvalue : ∀ f ∈ value, Run.Determined I on f)
    (hexit : report.exit = .criterion) (hstop : options.stop.OnGradient I on) :
    (minimizeConjugate value gradient (.vector x) options outside preconditioner).Settles I on
        (.ok x) ∧
      ∀ t, t.Meets I on →
        (minimizeConjugate value gradient (.vector x) options outside preconditioner).run t =
          (stay task.problem report.point >>= publish value).run t := by
  obtain ⟨finish, hfinish, hself⟩ := exists_publish_settles hvalue
  have hx : finish report.point.toArray = .ok x := (hfinish report).unique hpublish hsession
  obtain rfl := hself _ _ hx
  have hholds : (task.problem.stop report.gradient 0).Settles I on (.ok true) := by
    obtain ⟨settings, hsettings, -, hproblem, -⟩ := Minimize.Task.setUp_eq_ok hread
    obtain ⟨e, he⟩ := hstop _ (Options.settings_eq_ok hsettings).stop report.gradient
    cases hended.exits with
    | criterion _ holds =>
      rw [hproblem] at holds ⊢
      obtain rfl := (he report.iterations).unique holds hsession
      exact he 0
    | budget hother | noDescent hother | noProgress hother => cases hexit.symm.trans hother
  rw [minimizeConjugate_of_read (Minimize.Task.setUp_again hread report.point)]
  refine ⟨fun t ht => ?_, fun t ht => ?_⟩
  · obtain ⟨t', ht', -, hsolve⟩ :=
      solve_of_met hended.gradient hended.preconditioned hholds task.rule task.budget ht
    rw [EStateM.run_bind, hsolve]
    exact hx ▸ hfinish _ t' ht'
  · obtain ⟨t', -, hstay, hsolve⟩ :=
      solve_of_met hended.gradient hended.preconditioned hholds task.rule task.budget ht
    rw [EStateM.run_bind, EStateM.run_bind, hsolve, hstay]

end

end Conjugate

/-! ## Truncated Newton steps -/

namespace Newton

section

variable {α σ : Type} {n : Nat} [Numeral α] {I : Invariant α σ} {on : Logging.Source → Bool}
  {problem : Problem α σ n}

/-! ## A start that is not left -/

/-- A minimization that stops where it starts. -/
def stay (problem : Problem α σ n) (start : Vec α n) : Run α σ (Report α n) := do
  let gradient ← problem.gradient start
  let _ ← problem.stop gradient 0
  return ⟨start, gradient, 0, 1, .criterion⟩

/-- **Where the criterion holds at the start, nothing is searched.** -/
theorem solve_of_met {start gradient : Vec α n}
    (hgradient : (problem.gradient start).Settles I on (.ok gradient))
    (hholds : (problem.stop gradient 0).Settles I on (.ok true)) (rule : Rule α) (budget : Nat)
    {session : Session α σ} (hsession : session.Meets I on) :
    ∃ session', session'.Meets I on ∧
      (stay problem start).run session = .ok ⟨start, gradient, 0, 1, .criterion⟩ session' ∧
      (solve problem rule budget start).run session =
        .ok ⟨start, gradient, 0, 1, .criterion⟩ session' := by
  obtain ⟨session₁, h₁, hrun₁⟩ := hgradient session hsession
  obtain ⟨session₂, h₂, hrun₂⟩ := hholds session₁ h₁
  refine ⟨session₂, h₂, ?_, ?_⟩
  · simp only [stay, EStateM.run_bind, hrun₁, hrun₂, Run.ending]
    rfl
  · simp only [solve, EStateM.run_bind, hrun₁, Run.ending]
    cases budget with
    | zero =>
      rw [iterate, EStateM.run_bind, hrun₂]
      rfl
    | succ budget =>
      rw [iterate, EStateM.run_bind, hrun₂]
      rfl

end

/-! ## Minimizations of what callers give -/

section

variable {α σ : Type} [Numeral α] {I : Invariant α σ} {on : Logging.Source → Bool} {task : Task α σ}
  {session session' : Session α σ} {report : Report α task.unknowns}

/-- Why a minimization from a session on has ended with a report. -/
inductive Task.Exits (I : Invariant α σ) (on : Logging.Source → Bool) (task : Task α σ)
    (session : Session α σ) (report : Report α task.unknowns) : Prop
  | criterion (exit : report.exit = .criterion)
      (holds : (task.problem.stop report.gradient report.iterations).Settles I on (.ok true))
  | budget (exit : report.exit = .budget) (spent : report.iterations = task.budget)
  /-- The last search has gone along the steepest direction and led nowhere. -/
  | noProgress {outers : List (Outer α task.unknowns)} {outer : Outer α task.unknowns}
      {s : State α task.unknowns} {session₁ session₂ : Session α σ} {smoothed : Vec α task.unknowns}
      (exit : report.exit = .noProgress)
      (reaches : task.Reaches session outers s session₁)
      (last : (turn task.problem task.rule task.budget s).run session₁ =
        .ok (.done (some outer) report) session₂)
      (point : s.point = report.point)
      (preconditioned : (task.problem.smooth report.point report.gradient).Settles I on
        (.ok smoothed))
      (tried : (attempt task.problem task.rule s (-smoothed)).Settles I on (.ok outer.tries.last))
      (stuck : outer.tries.last.moved = false)

/-- Where and why a minimization from a session on has ended. -/
structure Task.Ended (I : Invariant α σ) (on : Logging.Source → Bool) (task : Task α σ)
    (session : Session α σ) (report : Report α task.unknowns) : Prop where
  gradient : (task.problem.gradient report.point).Settles I on (.ok report.gradient)
  /-- As many outer iterations have been made on the way as are reported. -/
  accepted : ∃ outers s session₁, task.Reaches session outers s session₁ ∧
    s.point = report.point ∧ outers.length = report.iterations
  exits : task.Exits I on session report

/-- **A minimization reports about the point where it ends.** -/
theorem Task.ended (h : task.problem.Determined I on) (hsession : session.Meets I on)
    (hrun : (solve task.problem task.rule task.budget task.start).run session =
      .ok report session') : task.Ended I on session report := by
  obtain ⟨gradient, session₁, hgradient, -⟩ := Run.bind_eq_ok hrun
  obtain ⟨outers, s, session₂, hreaches, hlast⟩ := task.exists_last hgradient
  rw [hrun] at hlast
  obtain ⟨last, hlast⟩ := hlast.exists_done
  obtain ⟨hmeets, hknown⟩ := hreaches.known h hsession
  have hanswered := ((turn_answered h _ _ s).of_ok hmeets hlast).2
  generalize hround : Run.Round.done last report = round at hanswered
  cases hanswered with
  | criterion holds =>
    cases hround
    exact ⟨hknown, ⟨_, _, _, hreaches, rfl, hreaches.bounded.1⟩, .criterion rfl holds⟩
  | budget spent =>
    cases hround
    exact ⟨hknown, ⟨_, _, _, hreaches, rfl, hreaches.bounded.1⟩,
      .budget rfl (Nat.le_antisymm hreaches.bounded.2 spent)⟩
  | accepted => cases hround
  | noProgress stuck steepest tried =>
    cases hround
    exact ⟨hknown, ⟨_, _, _, hreaches, rfl, hreaches.bounded.1⟩,
      .noProgress rfl hreaches hlast rfl steepest tried stuck⟩

variable {gradient : VectorField α σ} {hessian : Tensor α σ} {start : Datum α}
  {outside : Region α σ} {options : Options α σ} {preconditioner : Option (Tensor α σ)}
  {criterion : Criterion α σ}

/-- **A minimization that is started again where the criterion holds stays there**, if the criterion
looks at the gradient only. -/
theorem minimizeNewton_again
    (hread : Task.read gradient hessian start outside options preconditioner = .ok task)
    (hsession : session.Meets I on) (hended : task.Ended I on session report)
    (hexit : report.exit = .criterion) (hstop : options.stop.OnGradient I on) :
    (minimizeNewton gradient hessian (.vector report.point.toArray) outside options
        preconditioner).Settles I on (.ok report.point.toArray) ∧
      ∀ t, t.Meets I on →
        (minimizeNewton gradient hessian (.vector report.point.toArray) outside options
            preconditioner).run t =
          EStateM.run (do
            let report ← stay task.problem report.point
            announce ⟨task.unknowns, report⟩) t := by
  have hholds : (task.problem.stop report.gradient 0).Settles I on (.ok true) := by
    obtain ⟨settings, hsettings, -, hproblem, -⟩ := Minimize.Task.setUp_eq_ok hread
    obtain ⟨e, he⟩ := hstop _ (Options.settings_eq_ok hsettings).stop report.gradient
    cases hended.exits with
    | criterion _ holds =>
      rw [hproblem] at holds ⊢
      obtain rfl := (he report.iterations).unique holds hsession
      exact he 0
    | budget hother | noProgress hother => cases hexit.symm.trans hother
  rw [minimizeNewton_of_read (Minimize.Task.setUp_again hread report.point)]
  refine ⟨fun t ht => ?_, fun t ht => ?_⟩
  · obtain ⟨t', ht', -, hsolve⟩ := solve_of_met hended.gradient hholds task.rule task.budget ht
    rw [EStateM.run_bind, hsolve]
    exact announce_settles _ t' ht'
  · obtain ⟨t', -, hstay, hsolve⟩ := solve_of_met hended.gradient hholds task.rule task.budget ht
    rw [EStateM.run_bind, EStateM.run_bind, hsolve, hstay]

end

end Newton

/-! ## Both minimizers -/

/-- **A minimization returns a point for a reason, and stays there.** For functions that always give
the same answers: where a minimization returns a point, it has found the criterion to hold of the
gradient there and the number of iterations, or has spent its budget, or its last search from there
went along the steepest descent, preconditioned if there is a preconditioner, and led nowhere, or
that direction did not even descend. If the criterion looks at the gradient only and holds, a
minimization from that point returns it again, after one call of the gradient and no search. -/
theorem minimizers_exit {α σ : Type} [Numeral α] {I : Invariant α σ} {on : Logging.Source → Bool}
    {gradient : VectorField α σ} {hessian : Tensor α σ} {outside : Region α σ}
    {preconditioner : Option (Tensor α σ)} (start : Datum α)
    (hgradient : Run.Determined I on gradient) (hhessian : hessian.Determined I on)
    (houtside : Run.Determined I on outside)
    (hpreconditioner : ∀ tensor ∈ preconditioner, tensor.Determined I on) :
    (∀ {value : Option (ScalarField α σ)} {options : Conjugate.Options α σ}
      {session session' : Session α σ} {x : Array α}, (∀ f ∈ value, Run.Determined I on f) →
      options.stop.Determined I on → session.Meets I on →
      (minimizeConjugate value gradient start options outside preconditioner).run session =
        .ok x session' →
      ∃ criterion task report smoothed, options.stop.toCriterion = .ok criterion ∧
        Conjugate.Task.read gradient start options outside preconditioner = .ok task ∧
        task.problem = .posed task.unknowns gradient outside preconditioner criterion ∧
        (∀ K : Nat, options.maxIterations.toNumber = .ok (.whole K) → task.budget = K) ∧
        -- how it has ended
        (Conjugate.solve task.problem task.rule task.budget task.start).Settles I on
          (.ok report) ∧
        x = report.point.toArray ∧ task.Ended I on session report smoothed ∧
        -- started again where it has ended
        (report.exit = .criterion → options.stop.OnGradient I on →
          (minimizeConjugate value gradient (.vector x) options outside preconditioner).Settles
            I on (.ok x) ∧
          ∀ t, t.Meets I on →
            (minimizeConjugate value gradient (.vector x) options outside preconditioner).run t =
              (Conjugate.stay task.problem report.point >>= Conjugate.publish value).run t)) ∧
    (∀ {options : Newton.Options α σ} {session session' : Session α σ} {x : Array α},
      options.stop.Determined I on → session.Meets I on →
      (minimizeNewton gradient hessian start outside options preconditioner).run session =
        .ok x session' →
      ∃ criterion task report, options.stop.toCriterion = .ok criterion ∧
        Newton.Task.read gradient hessian start outside options preconditioner = .ok task ∧
        task.problem = .posed task.unknowns gradient hessian outside preconditioner criterion ∧
        (∀ x g, task.problem.smooth x g = Conjugate.smooth preconditioner x g) ∧
        (∀ K : Nat, options.maxIterations.toNumber = .ok (.whole K) → task.budget = K) ∧
        -- how it has ended
        (Newton.solve task.problem task.rule task.budget task.start).Settles I on (.ok report) ∧
        x = report.point.toArray ∧ task.Ended I on session report ∧
        -- started again where it has ended
        (report.exit = .criterion → options.stop.OnGradient I on →
          (minimizeNewton gradient hessian (.vector x) outside options preconditioner).Settles
            I on (.ok x) ∧
          ∀ t, t.Meets I on →
            (minimizeNewton gradient hessian (.vector x) outside options preconditioner).run t =
              EStateM.run (do
                let report ← Newton.stay task.problem report.point
                Newton.announce ⟨task.unknowns, report⟩) t)) := by
  constructor
  · intro value options session session' x hvalue hstop hsession hrun
    obtain ⟨task, hread, -⟩ := Run.check_eq_ok hrun
    obtain ⟨settings, hsettings, -, hproblem, -⟩ := Minimize.Task.setUp_eq_ok hread
    have hcriterion := (Conjugate.Options.settings_eq_ok hsettings).stop
    have hdetermined : task.problem.Determined I on :=
      hproblem ▸ Conjugate.Problem.posed_determined hgradient houtside hpreconditioner hstop
        hcriterion task.unknowns
    rw [Conjugate.minimizeConjugate_of_read hread] at hrun
    obtain ⟨report, session₁, hsolve, hpublish⟩ := Run.bind_eq_ok hrun
    obtain ⟨hmeets, hsettles⟩ := ((Conjugate.solve_compares hdetermined _ _ trivial).mono
      fun _ _ hreport => hreport.1).settled.of_ok hsession hsolve
    obtain ⟨smoothed, hended⟩ := Conjugate.Task.ended hdetermined hsession hsolve
    obtain ⟨finish, hfinish, hself⟩ := Conjugate.exists_publish_settles hvalue
    have hx := (hfinish report).eq_of_run hmeets hpublish
    exact ⟨settings.stop, task, report, smoothed, hcriterion, hread, hproblem,
      fun K hK => Conjugate.Task.budget_of_read hK hread, hsettles, hself _ _ hx, hended,
      Conjugate.minimizeConjugate_again hread hsession hended (hx ▸ hfinish report) hvalue⟩
  · intro options session session' x hstop hsession hrun
    obtain ⟨task, hread, -⟩ := Run.check_eq_ok hrun
    obtain ⟨settings, hsettings, -, hproblem, -⟩ := Minimize.Task.setUp_eq_ok hread
    have hcriterion := (Newton.Options.settings_eq_ok hsettings).stop
    have hdetermined : task.problem.Determined I on :=
      hproblem ▸ Newton.Problem.posed_determined hgradient hhessian houtside hpreconditioner hstop
        hcriterion task.unknowns
    rw [Newton.minimizeNewton_of_read hread] at hrun
    obtain ⟨report, session₁, hsolve, hannounce⟩ := Run.bind_eq_ok hrun
    obtain ⟨hmeets, hsettles⟩ := ((Newton.solve_compares hdetermined _ _ trivial).mono
      fun _ _ hreport => hreport.1).settled.of_ok hsession hsolve
    cases (Newton.announce_settles ⟨task.unknowns, report⟩).eq_of_run hmeets hannounce
    have hended := Newton.Task.ended hdetermined hsession hsolve
    refine ⟨settings.stop, task, report, hcriterion, hread, hproblem, fun y g => ?_,
      fun K hK => Newton.Task.budget_of_read hK hread, hsettles, rfl, hended,
      Newton.minimizeNewton_again hread hsession hended⟩
    rw [hproblem]
    exact Newton.Problem.smooth_posed _ y g

section

/-- Both minimizers of half the square of a number end by their criterion, and stay at the point
that they have returned. -/
theorem minimizers_exit_slope :
    (∃ x s s', (minimizeConjugate none slope (.vector #[1]) {} Region.everywhere none).run
        (.initial ()) = .ok x s ∧
      (minimizeConjugate none slope (.vector x) {} Region.everywhere none).run (.initial ()) =
        .ok x s') ∧
    ∃ x s s', (minimizeNewton slope (.constant (.operator .identity)) (.vector #[1])
        Region.everywhere {} none).run (.initial ()) = .ok x s ∧
      (minimizeNewton slope (.constant (.operator .identity)) (.vector x) Region.everywhere {}
        none).run (.initial ()) = .ok x s' := by
  let session : Session Float Unit := .initial ()
  let hessian : Tensor Float Unit := .constant (.operator .identity)
  have hmeets : session.Meets Invariant.none session.listens := ⟨trivial, rfl⟩
  have hslope : Run.Determined Invariant.none session.listens slope := .of_pure Datum.vector
  have hhessian : hessian.Determined Invariant.none session.listens := Tensor.determined_identity
  have houtside : Run.Determined Invariant.none session.listens
      (Region.everywhere : Region Float Unit) := .of_pure _
  have hnorm : (CriterionLike.criterion (.gradientNorm 1e-8) :
      CriterionLike Float Unit).OnGradient Invariant.none session.listens :=
    CriterionLike.onGradient_norm 1e-8
  have hvalue : ∀ f ∈ (none : Option (ScalarField Float Unit)),
      Run.Determined Invariant.none session.listens f := nofun
  have hpreconditioner : ∀ tensor ∈ (none : Option (Tensor Float Unit)),
      tensor.Determined Invariant.none session.listens := nofun
  obtain ⟨hconjugate, hnewton⟩ :=
    minimizers_exit (.vector #[1]) hslope hhessian houtside hpreconditioner
  constructor
  · have hexit : (·.2.exit) <$> (Conjugate.account slope (.vector #[1]) {} Region.everywhere
        none).answerFrom session = .ok .criterion := by
      decide +kernel
    obtain ⟨x, s, hrun⟩ := Run.returns_of_fault? (minimizeConjugate none slope (.vector #[1]) {}
      Region.everywhere none) session (by decide +kernel)
    obtain ⟨criterion, task, report, smoothed, -, hread, -, -, hsolve, -, -, hagain⟩ :=
      hconjugate hvalue hnorm.determined hmeets hrun
    rw [Conjugate.account, Minimize.account_of_read hread, hsolve.map.answerFrom_eq hmeets] at hexit
    obtain ⟨s', -, hstays⟩ := (hagain (Except.ok.inj hexit) hnorm).1 session hmeets
    exact ⟨x, s, s', hrun, hstays⟩
  · have hexit : (·.2.exit) <$> (Newton.account slope hessian (.vector #[1]) Region.everywhere {}
        none).answerFrom session = .ok .criterion := by
      decide +kernel
    obtain ⟨x, s, hrun⟩ := Run.returns_of_fault? (minimizeNewton slope hessian (.vector #[1])
      Region.everywhere {} none) session (by decide +kernel)
    obtain ⟨criterion, task, report, -, hread, -, -, -, hsolve, -, -, hagain⟩ :=
      hnewton hnorm.determined hmeets hrun
    rw [Newton.account, Minimize.account_of_read hread, hsolve.map.answerFrom_eq hmeets] at hexit
    obtain ⟨s', -, hstays⟩ := (hagain (Except.ok.inj hexit) hnorm).1 session hmeets
    exact ⟨x, s, s', hrun, hstays⟩

end

end Descent
