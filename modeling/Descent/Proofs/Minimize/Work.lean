import Descent.Proofs.Minimize.Callers
import Descent.Proofs.Minimize.Course
import Descent.Proofs.Minimize.Heads

/-!
# The work of a minimization by conjugate gradients

A search without progress restarts the direction, and after a restart another one ends the run. So
every accepted step is preceded by at most one search in vain, and the first search of a run cannot
be followed by one.

* `Conjugate.State.searchesLeft`: the searches that a budget leaves; `Conjugate.turn_descends`:
  every search uses one up.
* `Conjugate.State.Bounded`, `Conjugate.Task.Reaches.bounded`: the searches of a minimization, the
  accepted steps among them, and those in vain; `Conjugate.Task.exists_last`: every minimization
  comes to an end.
* `Conjugate.State.work`: the evaluations of the gradient that a budget leaves;
  `Conjugate.solve_counts`: how many a minimization makes and reports.
-/

namespace Descent

namespace Conjugate

section

variable {α σ : Type} {n : Nat} [Numeral α]

/-- The number of searches that are left when `limit` steps may be accepted: two for each of them,
but right after a restart the next search is accepted or the last one. -/
def State.searchesLeft (limit : Nat) (s : State α n) : Nat :=
  2 * (limit - s.iterations) - if s.sinceRestart = 0 then 1 else 0

/-- The number of evaluations of the gradient that are left: those of the searches and one for each
accepted step. -/
def State.work (limit : Nat) (s : State α n) : Nat :=
  limit - s.iterations + 2 * rounds * s.searchesLeft limit

variable {problem : Problem α σ n} {rule : Rule α} {s t : State α n} {slope : α} {limit : Nat}
  {found : Ray.Found α} {leg : Leg α n} {search : Search α n}
  {r : Run.Round (State α n) (Search α n) (Report α n)}

/-! ## What a round uses up -/

/-- Aiming counts nothing, and can only restart the count since the last restart. -/
theorem aim_counts (h : aim s = some (t, slope)) :
    t.iterations = s.iterations ∧ t.evaluations = s.evaluations ∧
      (t.sinceRestart ≠ 0 → s.sinceRestart ≠ 0) := by
  obtain rfl | rfl := aimed_eq h
  · exact ⟨rfl, rfl, id⟩
  · exact ⟨rfl, rfl, fun hne => absurd rfl hne⟩

theorem Settles.accepted_counts (h : Settles problem rule s slope found (.accepted t)) :
    t.iterations = s.iterations + 1 ∧
      t.evaluations = s.evaluations + found.evaluations + 1 := by
  cases h
  exact ⟨rfl, rfl⟩

theorem Settles.retry_counts (h : Settles problem rule s slope found (.retry t)) :
    s.sinceRestart ≠ 0 ∧ t.sinceRestart = 0 ∧ t.iterations = s.iterations ∧
      t.evaluations = s.evaluations + found.evaluations := by
  cases h with
  | retry _ hne => exact ⟨hne, rfl, rfl, rfl⟩

/-- What a search that the loop goes on from changes in the counts. -/
theorem Turns.again_counts (h : Turns problem rule limit s (.again search t)) :
    s.iterations < limit ∧ search.found.evaluations ≤ 2 * rounds ∧
      (search.moved = true ∧ t.iterations = s.iterations + 1 ∧
          t.evaluations = s.evaluations + search.found.evaluations + 1 ∨
        search.moved = false ∧ s.sinceRestart ≠ 0 ∧ t.sinceRestart = 0 ∧
          t.iterations = s.iterations ∧
          t.evaluations = s.evaluations + search.found.evaluations) := by
  obtain ⟨-, left, haim, hwork, hsettles, hround, rfl⟩ := h.again
  refine ⟨left, hwork, ?_⟩
  obtain ⟨hiterations, hevaluations, hsince⟩ := aim_counts haim
  rw [← hiterations, ← hevaluations]
  obtain ⟨head, aimed, slope, found, leg⟩ := search
  cases leg with
  | accepted u => exact .inl ⟨rfl, hsettles.accepted_counts⟩
  | retry u =>
    obtain ⟨hne, hcounts⟩ := hsettles.retry_counts
    exact .inr ⟨rfl, hsince hne, hcounts⟩
  | ended exit u => cases hround

/-- What the end of the loop says of the counts. -/
theorem Turns.done_counts {last : Option (Search α n)} {report : Report α n}
    (h : Turns problem rule limit s (.done last report)) :
    report.iterations = s.iterations ∧
      ∀ search ∈ last, s.iterations < limit ∧ search.moved = false := by
  generalize hround : Run.Round.done last report = round at h
  cases h with
  | criterion | budget | noDescent =>
    cases hround
    exact ⟨rfl, fun search hsearch => absurd hsearch (Option.not_mem_none search)⟩
  | search left haim work settles =>
    cases settles with
    | accepted | retry => cases hround
    | ended =>
      cases hround
      refine ⟨(aim_counts haim).1, fun search hsearch => ?_⟩
      cases hsearch
      exact ⟨left, rfl⟩

theorem Turns.left_le (h : Turns problem rule limit s r) :
    r.events.length + r.left (State.searchesLeft limit) ≤ s.searchesLeft limit := by
  cases r with
  | again search t =>
    obtain ⟨left, -, ⟨-, hiterations, -⟩ | ⟨-, hne, hzero, hiterations, -⟩⟩ := h.again_counts
    · simp only [Run.Round.events, Run.Round.left, List.length_singleton, State.searchesLeft,
        hiterations]
      split <;> split <;> omega
    · simp only [Run.Round.events, Run.Round.left, List.length_singleton, State.searchesLeft,
        hiterations, if_pos hzero, if_neg hne]
      omega
  | done last report =>
    simp only [Run.Round.events, Run.Round.left]
    cases last with
    | none => simp
    | some search =>
      have left := (h.done_counts.2 search rfl).1
      simp only [Option.toList_some, List.length_singleton, State.searchesLeft]
      split <;> omega

/-- An iteration does not use more evaluations than are left. -/
theorem Turns.work_le (h : Turns problem rule limit s (.again search t)) :
    t.evaluations + t.work limit ≤ s.evaluations + s.work limit := by
  have hleft := h.left_le
  simp only [Run.Round.events, Run.Round.left, List.length_singleton] at hleft
  obtain ⟨left, hwork, ⟨-, hiterations, hevaluations⟩ | ⟨-, -, -, hiterations, hevaluations⟩⟩ :=
    h.again_counts <;>
  · simp only [State.work, rounds, hiterations, hevaluations] at hwork ⊢
    omega

/-- **Every search uses up one of those that are left.** -/
theorem turn_descends (problem : Problem α σ n) (rule : Rule α) (limit : Nat) :
    Run.Descends (turn problem rule limit) (State.searchesLeft limit) :=
  fun s => (turn_keeps problem rule limit s).mono fun _ h => h.left_le

/-! ## The searches of a run -/

/-- What holds of the searches of a loop wherever it has come to the head of an iteration. -/
structure State.Bounded (limit : Nat) (searches : List (Search α n)) (s : State α n) : Prop where
  length_le : searches.length + s.searchesLeft limit ≤ 2 * limit - 1
  length_steps : (stepsOf searches).length = s.iterations
  within : s.iterations ≤ limit
  /-- No two searches in a row are in vain. -/
  alternate : searches.IsChain fun first second => first.moved = true ∨ second.moved = true
  restarted : ∀ search ∈ searches.getLast?, search.moved = false → s.sinceRestart = 0

variable {searches : List (Search α n)}

/-- An iteration that the loop goes on from keeps within the bounds. -/
theorem Turns.bounded (hs : s.Bounded limit searches)
    (h : Turns problem rule limit s (.again search t)) :
    t.Bounded limit (searches ++ [search]) := by
  have hleft := h.left_le
  simp only [Run.Round.events, Run.Round.left, List.length_singleton] at hleft
  have hlength : (searches ++ [search]).length + t.searchesLeft limit ≤ 2 * limit - 1 := by
    have := hs.length_le
    rw [List.length_append, List.length_singleton]
    omega
  have hsteps := hs.length_steps
  obtain ⟨left, -, ⟨hmoved, hiterations, -⟩ | ⟨hmoved, hne, hzero, hiterations, -⟩⟩ :=
    h.again_counts
  · refine ⟨hlength, ?_, by omega, ?_, ?_⟩
    · simp [stepsOf, hmoved, hiterations, ← hsteps]
    · refine List.IsChain.append hs.alternate (.singleton search) fun first _ second hsecond => ?_
      cases hsecond
      exact .inr hmoved
    · intro last hlast hvain
      rw [List.getLast?_concat, Option.mem_some_iff] at hlast
      subst hlast
      rw [hmoved] at hvain
      cases hvain
  · refine ⟨hlength, ?_, by omega, ?_, fun _ _ _ => hzero⟩
    · simp [stepsOf, hmoved, hiterations, ← hsteps]
    · refine List.IsChain.append hs.alternate (.singleton search) fun first hfirst _ _ => .inl ?_
      -- a search in vain would have left a restarted head
      by_contra hvain
      exact hne (hs.restarted first hfirst (Bool.eq_false_of_not_eq_true hvain))

theorem opening_bounded (problem : Problem α σ n) (limit : Nat) (start : Vec α n) :
    (opening problem start).Keeps Invariant.none (State.Bounded limit []) := by
  refine .bind (Run.keeps_none _) fun gradient _ => .bind (Run.keeps_none _) fun smoothed _ => ?_
  refine .pure ⟨?_, rfl, Nat.zero_le _, .nil, fun _ hlast => by cases hlast⟩
  simp [State.searchesLeft]

omit [Numeral α] in
/-- A search that starts is one of those that are left. -/
theorem State.Bounded.length_lt (h : s.Bounded limit searches) (left : s.iterations < limit) :
    searches.length + 1 ≤ 2 * limit - 1 := by
  have := h.length_le
  unfold State.searchesLeft at this
  split at this <;> omega

/-! ## The evaluations of a run -/

/-- Every call of the gradient adds one to a count, and nothing else does. -/
structure Problem.Counts (I : Nat → Invariant α σ) (problem : Problem α σ n) : Prop where
  gradient : ∀ x, (problem.gradient x).AddsOne I
  precondition : ∀ x g k, (problem.precondition x g).Keeps (I k) fun _ => True
  outside : ∀ x k, (problem.outside x).Keeps (I k) fun _ => True
  stop : ∀ g count k, (problem.stop g count).Keeps (I k) fun _ => True

variable {I : Nat → Invariant α σ}

omit [Numeral α] in
/-- Every problem agrees with a count that means nothing. -/
theorem Problem.Counts.unmarked (problem : Problem α σ n) :
    problem.Counts fun _ => Invariant.none where
  gradient x := .unmarked (problem.gradient x)
  precondition x g _ := Run.keeps_none (problem.precondition x g)
  outside x _ := Run.keeps_none (problem.outside x)
  stop g count _ := Run.keeps_none (problem.stop g count)

/-- A ray through a point adds one to the count for every slope. -/
theorem Problem.Counts.ticks (h : problem.Counts I) (x d : Vec α n) (base : Nat) :
    (Ray.through problem.gradient problem.outside x d).Ticks fun j => I (base + j) where
  outside _ k := h.outside _ (base + k)
  slope _ := ((h.gradient _).bind fun _ _ => .pure trivial).shift base

theorem seek_counts (h : problem.Counts I) (rule : Rule α) (s : State α n) (slope : α) :
    (seek problem rule s slope).Counts I (s.evaluations + 2 * rounds) s.evaluations fun found =>
      s.evaluations + found.evaluations := by
  refine .check (Nat.le_add_right _ _) fun manner hmanner => ?_
  rw [← rounds_of_searching hmanner]
  exact (Ray.search_counts (h.ticks _ _ _) manner _).shift

theorem settle_counts (h : problem.Counts I) (rule : Rule α) (s : State α n) (slope : α)
    (found : Ray.Found α) :
    (settle problem rule s slope found).Counts I (s.evaluations + found.evaluations + 1)
      (s.evaluations + found.evaluations) fun leg => leg.state.evaluations := by
  have hle := Nat.le_succ (s.evaluations + found.evaluations)
  refine .ite (fun _ => .ite (fun _ => .pure rfl hle) fun _ => .pure rfl hle) fun _ => ?_
  refine .bind (.of_addsOne (h.gradient _) _) (Nat.le_refl _) fun gradient _ => ?_
  refine .bind (.of_keeps (h.precondition _ _ _)) (Nat.le_refl _) fun smoothed _ => ?_
  exact .pure rfl (Nat.le_refl _)

/-- An iteration makes no more evaluations than are left, and keeps their number. -/
theorem turn_counts (h : problem.Counts I) (rule : Rule α) (limit : Nat) (s : State α n) :
    (turn problem rule limit s).Counts I (s.evaluations + s.work limit) s.evaluations
      (Run.Round.count State.evaluations (·.evaluations)) := by
  have hle := Nat.le_add_right s.evaluations (s.work limit)
  refine .bind (.of_keeps (h.stop _ _ _)) hle fun holds _ => ?_
  refine .ite (fun _ => .pure rfl hle) fun _ => .ite (fun _ => .pure rfl hle) fun left => ?_
  cases haim : aim s with
  | none => exact .pure rfl hle
  | some p =>
    obtain ⟨t, slope⟩ := p
    have heq : t.evaluations = s.evaluations := (aim_counts haim).2.1
    have hwork : s.evaluations + 2 * rounds + 1 ≤ s.evaluations + s.work limit := by
      have hleft : 1 ≤ s.searchesLeft limit := by
        unfold State.searchesLeft
        split <;> omega
      simp only [State.work, rounds]
      omega
    rw [← heq] at hwork ⊢
    refine .bind (seek_counts h rule t slope) (by omega) fun found hfound => ?_
    refine .bind (settle_counts h rule t slope found) (by omega) fun leg hleg => ?_
    refine .pure ?_ (by omega)
    cases leg <;> rfl

/-- The loop makes no more evaluations than are left, and reports their number. -/
theorem iterate_counts (h : problem.Counts I) (rule : Rule α) (limit : Nat) (s : State α n) :
    (iterate problem rule (limit - s.iterations) s).Counts I (s.evaluations + s.work limit)
      s.evaluations (·.evaluations) := by
  refine (iterate_loops problem rule limit).counts (turn_descends problem rule limit)
    (turn_counts h rule limit) (fun x => ?_) s
  refine (turn_keeps problem rule limit x).mono fun r hr search y hagain => ?_
  subst hagain
  exact hr.work_le

/-- The number of evaluations that a budget of accepted steps allows. -/
def evaluationBound (limit : Nat) : Nat :=
  1 + limit + 2 * rounds * (2 * limit - 1)

/-- **A minimization makes no more evaluations than its budget allows, and reports their number.**
-/
theorem solve_counts (h : problem.Counts I) (rule : Rule α) (limit : Nat) (start : Vec α n) :
    (solve problem rule limit start).Counts I (evaluationBound limit) 0 (·.evaluations) := by
  have hle : 1 ≤ evaluationBound limit := by
    unfold evaluationBound
    omega
  refine .bind (.of_addsOne (h.gradient start) 0) hle fun gradient _ => ?_
  refine .bind (.of_keeps (h.precondition start gradient 1)) hle fun smoothed _ => ?_
  have hcounts := iterate_counts h rule limit
    { point := start, gradient, smoothed
      product := Vec.dot gradient smoothed
      direction := -smoothed
      sinceRestart := 0
      previous := none
      iterations := 0
      evaluations := 1 }
  refine hcounts.mono ?_
  simp [State.work, State.searchesLeft, evaluationBound]
  omega

end

/-! ## Minimizations of what callers give -/

variable {α σ : Type} [Numeral α] {task : Task α σ} {session session' : Session α σ}
  {searches : List (Search α task.unknowns)} {s : State α task.unknowns}

/-- Wherever a minimization has come to, its searches are within its budget. -/
theorem Task.Reaches.bounded (h : task.Reaches session searches s session') :
    s.Bounded task.budget searches := by
  obtain ⟨first, session₁, hopening, hpath⟩ := h
  refine hpath.invariant (P := fun searches s => s.Bounded task.budget searches)
    ((opening_bounded _ _ _).of_ok trivial hopening).2 fun searches s hs => ?_
  refine (turn_keeps _ _ _ s).mono fun r hr search t hagain => ?_
  subst hagain
  exact hr.bounded hs

/-- **Every minimization that starts comes to an iteration in which it ends.** -/
theorem Task.exists_last (task : Task α σ) {first : State α task.unknowns}
    (hopening : (opening task.problem task.start).run session = .ok first session') :
    ∃ searches s session₁, task.Reaches session searches s session₁ ∧
      Run.EndsIn (turn task.problem task.rule task.budget) s session₁
        ((solve task.problem task.rule task.budget task.start).run session) := by
  obtain ⟨searches, s, session₁, hpath, hlast⟩ :=
    (iterate_loops task.problem task.rule task.budget).exists_last
      (turn_descends task.problem task.rule task.budget) first session'
  have hreaches : task.Reaches session searches s session₁ := ⟨first, session', hopening, hpath⟩
  refine ⟨searches, s, session₁, hreaches, ?_⟩
  rw [hpath.run_loop (iterate_loops _ _ _)] at hlast
  rw [hreaches.run_solve]
  exact hlast

/-- The budget is the whole number of steps that callers have set. -/
theorem Task.budget_of_read {gradient : VectorField α σ} {start : Datum α} {options : Options α σ}
    {outside : Region α σ} {preconditioner : Option (Tensor α σ)} {K : Nat}
    (hbudget : options.maxIterations.toNumber = .ok (.whole K))
    (hread : Task.read gradient start options outside preconditioner = .ok task) :
    task.budget = K :=
  Minimize.Task.budget_of_setUp hread
    (fun _ hs => Datum.toNumber_of_insist (Options.settings_eq_ok hs).maxIterations) hbudget

end Conjugate

end Descent
