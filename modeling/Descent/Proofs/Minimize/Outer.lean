import Descent.Proofs.Minimize.Inner
import Descent.Proofs.Minimize.Inside
import Descent.Proofs.Ray.Work
import Descent.Proofs.Run.Count

/-!
# The outer iterations of a minimization by truncated Newton steps

An outer iteration makes one inner solve and one or two searches: a second one if the Newton step
made no progress.

* `Newton.Outer`, `Newton.survey`: the record of an outer iteration; `Newton.leg_eq_survey`: a leg
  is what its record ends with.
* `Newton.turn`, `Newton.iterate_loops`: the loop repeats recorded iterations, from the state
  `Newton.opening` on; `Newton.solve_eq_loop`.
* `Newton.Concludes`, `Newton.Turns`: what an outer iteration changes in the counts;
  `Newton.turn_descends`: every one uses up one of the budget.
* `Newton.solve_counts`: how many evaluations of the gradient a minimization makes and reports.
-/

namespace Descent

namespace Newton

section

variable {α σ : Type} {n : Nat}

/-! ## A record of an outer iteration -/

/-- The searches of an outer iteration. -/
structure Tries (α : Type) (n : Nat) where
  first : Trial α n
  /-- The search along the steepest descent, if the Newton step made no progress. -/
  second : Option (Trial α n)

namespace Tries

/-- The searches in order. -/
def trials (tries : Tries α n) : List (Trial α n) :=
  tries.first :: tries.second.toList

/-- The last search. -/
def last (tries : Tries α n) : Trial α n :=
  tries.second.getD tries.first

/-- The evaluations of the gradient in the searches. -/
def evaluations (tries : Tries α n) : Nat :=
  (tries.trials.map Trial.evaluations).sum

theorem length_trials_le (tries : Tries α n) : tries.trials.length ≤ 2 := by
  cases h : tries.second <;> simp [trials, h]

end Tries

/-- An outer iteration: the inner solve, the searches, and what they led to. -/
structure Outer (α : Type) (n : Nat) where
  inner : LinearSystem.Report α n
  tries : Tries α n
  leg : Leg α n

/-- What the last search leads to. -/
def conclude (problem : Problem α σ n) (s : State α n) (tries : Tries α n) : Run α σ (Leg α n) :=
  if tries.last.moved then arrive problem s tries.last.point tries.evaluations
  else return .ended { s with evaluations := s.evaluations + tries.evaluations }

/-- What an outer iteration means for the loop. -/
def Outer.round (outer : Outer α n) : Run.Round (State α n) (Outer α n) (Report α n) :=
  match outer.leg with
  | .accepted s => .again outer s
  | .ended s => .done (some outer) (s.report .noProgress)

variable [Numeral α]

/-- The search along a step, and another one if it was a Newton step and made no progress. -/
def seek (problem : Problem α σ n) (rule : Rule α) (smoother : Option (LinearMap α σ n))
    (s : State α n) (direction : Direction α n) : Run α σ (Tries α n) := do
  let first ← attempt problem rule s direction.step
  if first.moved then return ⟨first, none⟩
  else if direction.isNewton then
    Run.debug .newton fun _ => "Newton step stalled, falling back to steepest descent"
    let second ← attempt problem rule s (← steepest smoother s.gradient)
    return ⟨first, some second⟩
  else return ⟨first, none⟩

/-- One outer iteration, recorded. -/
def survey (problem : Problem α σ n) (rule : Rule α) (s : State α n) : Run α σ (Outer α n) := do
  let smoother ← problem.precondition s.point
  let report ← inner problem rule smoother s
  let direction ← choose smoother s.gradient report
  let tries ← seek problem rule smoother s direction
  let leg ← conclude problem s tries
  return ⟨report, tries, leg⟩

/-- One round of the loop, which goes on while fewer than `limit` iterations have been made. -/
def turn (problem : Problem α σ n) (rule : Rule α) (limit : Nat) (s : State α n) :
    Run α σ (Run.Round (State α n) (Outer α n) (Report α n)) := do
  if ← problem.stop s.gradient s.iterations then return .done none (s.report .criterion)
  else if limit ≤ s.iterations then return .done none (s.report .budget)
  else return (← survey problem rule s).round

/-- The searches of an outer iteration with its end. -/
theorem seek_bind_conclude (problem : Problem α σ n) (rule : Rule α)
    (smoother : Option (LinearMap α σ n)) (s : State α n) (direction : Direction α n) :
    seek problem rule smoother s direction >>= conclude problem s = (do
      let first ← attempt problem rule s direction.step
      if first.moved then arrive problem s first.point first.evaluations
      else if direction.isNewton then
        Run.debug .newton fun _ => "Newton step stalled, falling back to steepest descent"
        let second ← attempt problem rule s (← steepest smoother s.gradient)
        let evaluations := first.evaluations + second.evaluations
        if second.moved then arrive problem s second.point evaluations
        else return .ended { s with evaluations := s.evaluations + evaluations }
      else return .ended { s with evaluations := s.evaluations + first.evaluations }) := by
  simp only [seek, bind_assoc]
  refine bind_congr fun first => ?_
  split
  · rename_i hmoved
    simp [conclude, Tries.last, Tries.evaluations, Tries.trials, hmoved]
  · rename_i hstuck
    split
    · simp only [bind_assoc, pure_bind]
      refine bind_congr fun _ => bind_congr fun step => bind_congr fun second => ?_
      simp [conclude, Tries.last, Tries.evaluations, Tries.trials]
    · simp [conclude, Tries.last, Tries.evaluations, Tries.trials, hstuck]

/-- An outer iteration is what its record ends with. -/
theorem leg_eq_survey (problem : Problem α σ n) (rule : Rule α) (s : State α n) :
    leg problem rule s = Outer.leg <$> survey problem rule s := by
  simp only [leg, survey, direction_eq, map_eq_pure_bind, bind_assoc, pure_bind, bind_pure]
  refine bind_congr fun smoother => bind_congr fun report => bind_congr fun direction => ?_
  exact (seek_bind_conclude problem rule smoother s direction).symm

variable {problem : Problem α σ n} {rule : Rule α} {s t : State α n} {limit : Nat}
  {outer : Outer α n} {r : Run.Round (State α n) (Outer α n) (Report α n)}

/-! ## What an outer iteration can come to -/

theorem attempt_evaluations (problem : Problem α σ n) (rule : Rule α) (s : State α n)
    (step : Vec α n) :
    (attempt problem rule s step).Keeps Invariant.none fun trial =>
      trial.evaluations ≤ 2 * rounds :=
  .bind (Ray.search_evaluations _ _ _) fun _ hfound => .pure hfound

/-- An outer iteration has at most two searches. -/
theorem seek_evaluations (problem : Problem α σ n) (rule : Rule α)
    (smoother : Option (LinearMap α σ n)) (s : State α n) (direction : Direction α n) :
    (seek problem rule smoother s direction).Keeps Invariant.none fun tries =>
      tries.evaluations ≤ 4 * rounds := by
  have hone {first : Trial α n} (h : first.evaluations ≤ 2 * rounds) :
      (⟨first, none⟩ : Tries α n).evaluations ≤ 4 * rounds := by
    simp only [Tries.evaluations, Tries.trials, Option.toList_none, List.map_singleton,
      List.sum_singleton]
    omega
  refine .bind (attempt_evaluations _ _ _ _) fun first hfirst => ?_
  refine .ite (fun _ => .pure (hone hfirst)) fun _ => ?_
  refine .ite (fun _ => ?_) fun _ => .pure (hone hfirst)
  refine .bind .debug fun _ _ => .bind (Run.keeps_none _) fun step _ => ?_
  refine .bind (attempt_evaluations _ _ _ _) fun second hsecond => .pure ?_
  simp only [Tries.evaluations, Tries.trials, Option.toList_some, List.map_cons, List.map_nil,
    List.sum_cons, List.sum_nil]
  omega

/-- What can follow from the searches of an outer iteration. -/
inductive Concludes (s : State α n) (tries : Tries α n) : Leg α n → Prop
  | accepted {t : State α n} (hiterations : t.iterations = s.iterations + 1)
      (hevaluations : t.evaluations = s.evaluations + tries.evaluations + 1) :
      Concludes s tries (.accepted t)
  | ended {t : State α n} (hiterations : t.iterations = s.iterations)
      (hevaluations : t.evaluations = s.evaluations + tries.evaluations) :
      Concludes s tries (.ended t)

omit [Numeral α] in
theorem conclude_keeps (problem : Problem α σ n) (s : State α n) (tries : Tries α n) :
    (conclude problem s tries).Keeps Invariant.none (Concludes s tries) := by
  refine .ite (fun _ => ?_) fun _ => .pure (.ended rfl rfl)
  exact .bind (Run.keeps_none _) fun _ _ => .pure (.accepted rfl rfl)

theorem survey_keeps (problem : Problem α σ n) (rule : Rule α) (s : State α n) :
    (survey problem rule s).Keeps Invariant.none fun outer =>
      outer.tries.evaluations ≤ 4 * rounds ∧ Concludes s outer.tries outer.leg := by
  refine .bind (Run.keeps_none _) fun smoother _ => .bind (Run.keeps_none _) fun report _ => ?_
  refine .bind (Run.keeps_none _) fun direction _ => ?_
  refine .bind (seek_evaluations _ _ _ _ _) fun tries htries => ?_
  exact .bind (conclude_keeps _ _ _) fun leg hleg => .pure ⟨htries, hleg⟩

/-- What a round of the loop can come to. -/
inductive Turns (limit : Nat) (s : State α n) :
    Run.Round (State α n) (Outer α n) (Report α n) → Prop
  | stopped (exit : Exit) : Turns limit s (.done none (s.report exit))
  | outer {outer : Outer α n} (left : s.iterations < limit)
      (work : outer.tries.evaluations ≤ 4 * rounds)
      (concludes : Concludes s outer.tries outer.leg) : Turns limit s outer.round

theorem turn_keeps (problem : Problem α σ n) (rule : Rule α) (limit : Nat) (s : State α n) :
    (turn problem rule limit s).Keeps Invariant.none (Turns limit s) := by
  refine .bind (Run.keeps_none _) fun holds _ => ?_
  refine .ite (fun _ => .pure (.stopped _)) fun _ => ?_
  refine .ite (fun _ => .pure (.stopped _)) fun left => ?_
  refine .bind (survey_keeps problem rule s) fun outer houter => ?_
  exact .pure (.outer (Nat.lt_of_not_le left) houter.1 houter.2)

omit [Numeral α] in
/-- What a round that the loop goes on from changes in the counts. -/
theorem Turns.again_counts (h : Turns limit s (.again outer t)) :
    s.iterations < limit ∧ t.iterations = s.iterations + 1 ∧
      t.evaluations ≤ s.evaluations + 4 * rounds + 1 := by
  generalize hround : Run.Round.again outer t = round at h
  cases h with
  | stopped => cases hround
  | @outer outer' left work concludes =>
    obtain ⟨inner, tries, leg⟩ := outer'
    cases concludes with
    | accepted hiterations hevaluations =>
      cases hround
      exact ⟨left, hiterations, by omega⟩
    | ended => cases hround

omit [Numeral α] in
/-- The last round reports the iterations that have been accepted. -/
theorem Turns.done_counts {last : Option (Outer α n)} {report : Report α n}
    (h : Turns limit s (.done last report)) :
    report.iterations = s.iterations ∧ ∀ outer ∈ last, s.iterations < limit := by
  generalize hround : Run.Round.done last report = round at h
  cases h with
  | stopped exit =>
    cases hround
    exact ⟨rfl, fun outer houter => absurd houter (Option.not_mem_none outer)⟩
  | @outer outer' left work concludes =>
    obtain ⟨inner, tries, leg⟩ := outer'
    cases concludes with
    | accepted => cases hround
    | ended hiterations =>
      cases hround
      exact ⟨hiterations, fun _ _ => left⟩

omit [Numeral α] in
theorem Turns.left_le (h : Turns limit s r) :
    r.events.length + r.left (fun t => limit - t.iterations) ≤ limit - s.iterations := by
  cases r with
  | again outer t =>
    obtain ⟨left, hiterations, -⟩ := h.again_counts
    simp only [Run.Round.events, Run.Round.left, List.length_singleton]
    omega
  | done last report =>
    cases last with
    | none => simp [Run.Round.events, Run.Round.left]
    | some outer =>
      have left := h.done_counts.2 outer rfl
      simp only [Run.Round.events, Run.Round.left, Option.toList_some, List.length_singleton]
      omega

/-- **Every outer iteration uses up one of the budget.** -/
theorem turn_descends (problem : Problem α σ n) (rule : Rule α) (limit : Nat) :
    Run.Descends (turn problem rule limit) fun s => limit - s.iterations :=
  fun s => (turn_keeps problem rule limit s).mono fun _ h => h.left_le

/-- The state that a minimization starts from. -/
def opening (problem : Problem α σ n) (start : Vec α n) : Run α σ (State α n) := do
  let gradient ← problem.gradient start
  return ⟨start, gradient, 0, 1⟩

theorem solve_eq_opening (problem : Problem α σ n) (rule : Rule α) (budget : Nat)
    (start : Vec α n) : solve problem rule budget start =
      opening problem start >>= iterate problem rule budget := by
  simp only [solve, opening, bind_assoc, pure_bind]

/-- A minimization is its loop from its opening on, with what is left of the budget. -/
theorem solve_eq_loop (problem : Problem α σ n) (rule : Rule α) (budget : Nat)
    (start : Vec α n) : solve problem rule budget start = opening problem start >>= fun s =>
      iterate problem rule (budget - s.iterations) s := by
  simp only [solve, opening, bind_assoc, pure_bind, Nat.sub_zero]

/-- **The loop repeats its outer iterations** until one of them ends it. -/
theorem iterate_loops (problem : Problem α σ n) (rule : Rule α) (limit : Nat) :
    Run.Loops (turn problem rule limit) fun s =>
      iterate problem rule (limit - s.iterations) s := by
  intro s
  dsimp only
  unfold turn
  rw [bind_assoc]
  by_cases hlimit : limit ≤ s.iterations
  · rw [Nat.sub_eq_zero_of_le hlimit, iterate]
    refine bind_congr fun holds => ?_
    split <;> rfl
  · obtain ⟨budget, hbudget⟩ : ∃ budget, limit - s.iterations = budget + 1 :=
      Nat.exists_eq_add_one.2 (by omega)
    rw [hbudget, iterate]
    refine bind_congr fun holds => ?_
    split
    · rfl
    · rw [leg_eq_survey]
      simp only [map_eq_pure_bind, bind_assoc, pure_bind]
      refine (survey_keeps problem rule s).bind_congr fun outer houter => ?_
      obtain ⟨inner, tries, leg⟩ := outer
      obtain ⟨-, hconcludes⟩ := houter
      cases hconcludes with
      | ended => rfl
      | @accepted t hiterations =>
        have hleft : limit - t.iterations = budget := by omega
        simp only [Outer.round, hleft]

/-! ## The evaluations of a run -/

/-- Every call of the gradient adds one to a count, and nothing else does. -/
structure Problem.Counts (I : Nat → Invariant α σ) (problem : Problem α σ n) : Prop where
  gradient : ∀ x, (problem.gradient x).AddsOne I
  hessian : ∀ x k, (problem.hessian x).Keeps (I k) fun map => ∀ j, LinearMap.Kept (I j) map
  precondition : ∀ x k, (problem.precondition x).Keeps (I k) fun smoother =>
    ∀ map ∈ smoother, ∀ j, LinearMap.Kept (I j) map
  outside : ∀ x k, (problem.outside x).Keeps (I k) fun _ => True
  stop : ∀ g count k, (problem.stop g count).Keeps (I k) fun _ => True

variable {I : Nat → Invariant α σ} {smoother : Option (LinearMap α σ n)}

omit [Numeral α] in
/-- Every problem agrees with a count that means nothing. -/
theorem Problem.Counts.unmarked (problem : Problem α σ n) :
    problem.Counts fun _ => Invariant.none where
  gradient x := .unmarked (problem.gradient x)
  hessian x _ := (Run.keeps_none (problem.hessian x)).mono fun map _ _ v => Run.keeps_none (map v)
  precondition x _ := (Run.keeps_none (problem.precondition x)).mono
    fun _ _ map _ _ v => Run.keeps_none (map v)
  outside x _ := Run.keeps_none (problem.outside x)
  stop g count _ := Run.keeps_none (problem.stop g count)

theorem attempt_counts (h : problem.Counts I) (rule : Rule α) (s : State α n) (step : Vec α n)
    (k : Nat) :
    (attempt problem rule s step).Counts I (k + 2 * rounds) k fun trial =>
      k + trial.evaluations := by
  have hticks : (Ray.through problem.gradient problem.outside s.point step).Ticks
      fun j => I (k + j) :=
    ⟨fun _ j => h.outside _ (k + j),
      fun _ => ((h.gradient _).bind fun _ _ => .pure trivial).shift k⟩
  refine .bind (Ray.search_counts hticks _ _).shift (Nat.le_refl _) fun found hfound => ?_
  exact .pure rfl hfound

theorem seek_counts (h : problem.Counts I) (rule : Rule α)
    (hsmoother : ∀ map ∈ smoother, ∀ j, LinearMap.Kept (I j) map) (s : State α n)
    (direction : Direction α n) :
    (seek problem rule smoother s direction).Counts I (s.evaluations + 4 * rounds) s.evaluations
      fun tries => s.evaluations + tries.evaluations := by
  refine .bind (attempt_counts h rule s _ s.evaluations) (by omega) fun first hfirst => ?_
  have hle : s.evaluations + first.evaluations ≤ s.evaluations + 4 * rounds := by omega
  have hone : (⟨first, none⟩ : Tries α n).evaluations = first.evaluations := by
    simp [Tries.evaluations, Tries.trials]
  refine .ite (fun _ => .pure (by rw [hone]) hle) fun _ => .ite (fun _ => ?_) fun _ =>
    .pure (by rw [hone]) hle
  refine .keeps_bind .debug hle fun _ _ => ?_
  refine .keeps_bind (steepest_keeps (fun map hmap => hsmoother map hmap _) _) hle fun step _ => ?_
  refine .bind (attempt_counts h rule s step _) (by omega) fun second hsecond => ?_
  refine .pure ?_ (by omega)
  simp [Tries.evaluations, Tries.trials, Nat.add_assoc]

omit [Numeral α] in
theorem conclude_counts (h : problem.Counts I) (s : State α n) (tries : Tries α n) :
    (conclude problem s tries).Counts I (s.evaluations + tries.evaluations + 1)
      (s.evaluations + tries.evaluations) fun leg => leg.state.evaluations := by
  refine .ite (fun _ => ?_) fun _ => .pure rfl (Nat.le_succ _)
  exact .bind (.of_addsOne (h.gradient _) _) (Nat.le_refl _) fun _ _ => .pure rfl (Nat.le_refl _)

theorem survey_counts (h : problem.Counts I) (rule : Rule α) (s : State α n) :
    (survey problem rule s).Counts I (s.evaluations + 4 * rounds + 1) s.evaluations fun outer =>
      outer.leg.state.evaluations := by
  have hle : s.evaluations ≤ s.evaluations + 4 * rounds + 1 := by omega
  refine .keeps_bind (h.precondition s.point _) hle fun smoother hsmoother => ?_
  refine .keeps_bind (Q := fun _ => True) ?_ hle fun report _ => ?_
  · refine .bind (h.hessian s.point _) fun map hmap => ?_
    exact LinearSystem.run_keeps ⟨hmap _, fun map hmap => hsmoother map hmap _⟩ _ _ _ _
  refine .keeps_bind (Q := fun _ => True) ?_ hle fun direction _ => ?_
  · refine .ite (fun _ => .pure trivial) fun _ => ?_
    exact .bind (steepest_keeps (fun map hmap => hsmoother map hmap _) _) fun _ _ => .pure trivial
  refine .bind (seek_counts h rule hsmoother s direction) (by omega) fun tries htries => ?_
  exact .bind (conclude_counts h s tries) (by omega) fun leg hleg => .pure rfl (by omega)

/-- The evaluations of the gradient that a budget leaves. -/
def State.work (limit : Nat) (s : State α n) : Nat :=
  (4 * rounds + 1) * (limit - s.iterations)

omit [Numeral α] in
/-- An iteration does not use more evaluations than are left. -/
theorem Turns.work_le (h : Turns limit s (.again outer t)) :
    t.evaluations + t.work limit ≤ s.evaluations + s.work limit := by
  obtain ⟨left, hiterations, hevaluations⟩ := h.again_counts
  simp only [State.work, rounds] at hevaluations ⊢
  omega

/-- An iteration makes no more evaluations than are left, and keeps their number. -/
theorem turn_counts (h : problem.Counts I) (rule : Rule α) (limit : Nat) (s : State α n) :
    (turn problem rule limit s).Counts I (s.evaluations + s.work limit) s.evaluations
      (Run.Round.count State.evaluations (·.evaluations)) := by
  have hle := Nat.le_add_right s.evaluations (s.work limit)
  refine .keeps_bind (h.stop _ _ _) hle fun holds _ => ?_
  refine .ite (fun _ => .pure rfl hle) fun _ => .ite (fun _ => .pure rfl hle) fun left => ?_
  have hwork : s.evaluations + 4 * rounds + 1 ≤ s.evaluations + s.work limit := by
    simp only [State.work, rounds]
    omega
  refine .bind (survey_counts h rule s) hwork fun outer houter => .pure ?_ (by omega)
  obtain ⟨inner, tries, leg⟩ := outer
  cases leg <;> rfl

/-- The number of evaluations that a budget of outer iterations allows. -/
def evaluationBound (limit : Nat) : Nat :=
  1 + (4 * rounds + 1) * limit

/-- **A minimization makes no more evaluations than its budget allows, and reports their number.**
-/
theorem solve_counts (h : problem.Counts I) (rule : Rule α) (limit : Nat) (start : Vec α n) :
    (solve problem rule limit start).Counts I (evaluationBound limit) 0 (·.evaluations) := by
  refine .bind (.of_addsOne (h.gradient start) 0) (Nat.le_add_right _ _) fun gradient _ => ?_
  refine (iterate_loops problem rule limit).counts (turn_descends problem rule limit)
    (turn_counts h rule limit) (fun x => ?_) (⟨start, gradient, 0, 1⟩ : State α n)
  refine (turn_keeps problem rule limit x).mono fun r hr search y hagain => ?_
  subst hagain
  exact hr.work_le

end

/-! ## Minimizations of what callers give -/

variable {α σ : Type} [Numeral α] {task : Task α σ} {session session' : Session α σ}
  {outers : List (Outer α task.unknowns)} {s : State α task.unknowns}

/-- From a session on, a minimization has come to the head of an outer iteration in a state and
another session, after some iterations. -/
def Task.Reaches (task : Task α σ) (session : Session α σ) (outers : List (Outer α task.unknowns))
    (s : State α task.unknowns) (session' : Session α σ) : Prop :=
  ∃ gradient session₁, (task.problem.gradient task.start).run session = .ok gradient session₁ ∧
    Run.Path (turn task.problem task.rule task.budget) ⟨task.start, gradient, 0, 1⟩ session₁ outers
      s session'

/-- Wherever a minimization has come to, it has made its outer iterations within its budget. -/
theorem Task.Reaches.bounded (h : task.Reaches session outers s session') :
    outers.length = s.iterations ∧ s.iterations ≤ task.budget := by
  obtain ⟨gradient, session₁, -, hpath⟩ := h
  refine hpath.invariant (P := fun outers s =>
    outers.length = s.iterations ∧ s.iterations ≤ task.budget) ⟨rfl, Nat.zero_le _⟩
    fun outers s hs => ?_
  refine (turn_keeps _ _ _ s).mono fun r hr outer t hagain => ?_
  subst hagain
  obtain ⟨left, hiterations, -⟩ := hr.again_counts
  rw [List.length_append, List.length_singleton, hiterations]
  omega

/-- **Every minimization that starts comes to an outer iteration in which it ends.** -/
theorem Task.exists_last (task : Task α σ) {gradient : Vec α task.unknowns}
    (hgradient : (task.problem.gradient task.start).run session = .ok gradient session') :
    ∃ outers s session₁, task.Reaches session outers s session₁ ∧
      Run.EndsIn (turn task.problem task.rule task.budget) s session₁
        ((solve task.problem task.rule task.budget task.start).run session) := by
  obtain ⟨outers, s, session₁, hpath, hlast⟩ :=
    (iterate_loops task.problem task.rule task.budget).exists_last
      (turn_descends task.problem task.rule task.budget) ⟨task.start, gradient, 0, 1⟩ session'
  refine ⟨outers, s, session₁, ⟨gradient, session', hgradient, hpath⟩, ?_⟩
  rw [solve, EStateM.run_bind, hgradient]
  exact hlast

end Newton

end Descent
