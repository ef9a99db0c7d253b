import Descent.Proofs.Minimize.Inside
import Descent.Proofs.Ray.Work
import Descent.Proofs.Run.Loop

/-!
# The rounds of a minimization by conjugate gradients

An iteration of the loop asks the criterion and the budget, aims, searches, and settles what follows
from the length that was found. A search without progress is tried again from the steepest descent,
in an iteration of its own: `Conjugate.iterate` has that second try written out, `Conjugate.turn` is
the iteration by itself.

* `Conjugate.seek`, `Conjugate.settle`: the two halves of a leg; `Conjugate.leg_eq`.
* `Conjugate.Settles`, `Conjugate.Turns`: all that a leg and an iteration can come to;
  `Conjugate.settle_keeps`, `Conjugate.turn_keeps`.
* `Conjugate.iterate_loops`: the loop repeats its iterations until one of them ends it.
* `Conjugate.opening`: the state that a minimization starts from; `Conjugate.solve_eq_opening`,
  `Conjugate.solve_eq_loop`.
-/

namespace Descent

namespace Conjugate

section

variable {α σ : Type} {n : Nat} [Numeral α]

/-! ## The parts of a leg -/

/-- The state after a search with so many evaluations of the gradient. -/
def State.counted (s : State α n) (evaluations : Nat) : State α n :=
  { s with evaluations := s.evaluations + evaluations }

/-- The state of a second try: from the steepest descent, as if there had been no step before. -/
def State.restarted (s : State α n) : State α n :=
  { s.steepest with previous := none }

/-- The search from a state along its direction. -/
def seek (problem : Problem α σ n) (rule : Rule α) (s : State α n) (slope : α) :
    Run α σ (Ray.Found α) := do
  let ray := Ray.through problem.gradient problem.outside s.point s.direction
  let manner ← Run.ofExcept (rule.searching (startLength s.previous slope s.direction))
  Ray.search ray manner (some (Vec.dot s.gradient s.direction))

/-- Whether a length makes no progress: it is zero, or too small to lead to another point. -/
def State.stuck (s : State α n) (length : α) : Bool :=
  length == 0 || Vec.along s.point length s.direction == s.point

/-- What follows from the length that was found. -/
def settle (problem : Problem α σ n) (rule : Rule α) (s : State α n) (slope : α)
    (found : Ray.Found α) : Run α σ (Leg α n) := do
  let s := s.counted found.evaluations
  let point := Vec.along s.point found.length s.direction
  if s.stuck found.length then
    if s.sinceRestart = 0 then return .ended .noProgress s
    else return .retry s.restarted
  else
    let gradient ← problem.gradient point
    let smoothed ← problem.precondition point gradient
    return .accepted (advance rule s ⟨found.length, slope⟩ point gradient smoothed)

/-- A leg is a search and what follows from it. -/
theorem leg_eq (problem : Problem α σ n) (rule : Rule α) (s : State α n) :
    leg problem rule s = match aim s with
      | none => pure (.ended .noDescent s)
      | some (t, slope) => seek problem rule t slope >>= settle problem rule t slope := by
  unfold leg
  cases aim s with
  | none => rfl
  | some p =>
    simp only [seek, bind_assoc]
    rfl

/-- A search, from the head of its iteration on. -/
structure Search (α : Type) (n : Nat) where
  head : State α n
  /-- The state that was searched from, with the direction that was searched along. -/
  aimed : State α n
  slope : α
  found : Ray.Found α
  leg : Leg α n

/-- The state that a search led to. -/
def Search.next (search : Search α n) : State α n := search.leg.state

/-- Whether a search ended with an accepted step. -/
def Search.moved (search : Search α n) : Bool :=
  match search.leg with
  | .accepted _ => true
  | _ => false

/-- What a search means for the loop. -/
def Search.round (search : Search α n) : Run.Round (State α n) (Search α n) (Report α n) :=
  match search.leg with
  | .accepted s | .retry s => .again search s
  | .ended exit s => .done (some search) (s.report exit)

/-- One iteration of the loop, which goes on while fewer than `limit` steps have been accepted. -/
def turn (problem : Problem α σ n) (rule : Rule α) (limit : Nat) (s : State α n) :
    Run α σ (Run.Round (State α n) (Search α n) (Report α n)) := do
  if ← problem.stop s.gradient s.iterations then return .done none (s.report .criterion)
  else if limit ≤ s.iterations then return .done none (s.report .budget)
  else
    match aim s with
    | none => return .done none (s.report .noDescent)
    | some (t, slope) =>
      let found ← seek problem rule t slope
      let leg ← settle problem rule t slope found
      return Search.round ⟨s, t, slope, found, leg⟩

variable {problem : Problem α σ n} {rule : Rule α} {s t : State α n} {slope : α} {limit : Nat}

/-! ## What an iteration can come to -/

/-- A search starts along a direction that descends: the one of its head, or the steepest one. -/
theorem aim_cases (h : aim s = some (t, slope)) :
    slope < 0 ∧ (t = s ∧ slope = Vec.dot s.gradient s.direction ∨
      t = s.steepest ∧ slope = -s.product) := by
  simp only [aim] at h
  split at h
  · cases h
    exact ⟨‹_›, .inl ⟨rfl, rfl⟩⟩
  · split at h
    · cases h
      exact ⟨‹_›, .inr ⟨rfl, rfl⟩⟩
    · cases h

/-- Aiming either leaves a state as it is or restarts it. -/
theorem aimed_eq (h : aim s = some (t, slope)) : t = s ∨ t = s.steepest :=
  (aim_cases h).2.imp And.left And.left

/-- What can follow from the length that was found. -/
inductive Settles (problem : Problem α σ n) (rule : Rule α) (s : State α n) (slope : α)
    (found : Ray.Found α) : Leg α n → Prop
  | accepted {gradient smoothed : Vec α n} (hmoves : s.stuck found.length = false)
      (hgradient : (problem.gradient (Vec.along s.point found.length s.direction)).Gives gradient)
      (hsmoothed : (problem.precondition (Vec.along s.point found.length s.direction)
        gradient).Gives smoothed) :
      Settles problem rule s slope found (.accepted (advance rule (s.counted found.evaluations)
        ⟨found.length, slope⟩ (Vec.along s.point found.length s.direction) gradient smoothed))
  | retry (hstuck : s.stuck found.length = true) (hsince : s.sinceRestart ≠ 0) :
      Settles problem rule s slope found (.retry (s.counted found.evaluations).restarted)
  | ended (hstuck : s.stuck found.length = true) (hsince : s.sinceRestart = 0) :
      Settles problem rule s slope found (.ended .noProgress (s.counted found.evaluations))

theorem settle_keeps (problem : Problem α σ n) (rule : Rule α) (s : State α n) (slope : α)
    (found : Ray.Found α) : (settle problem rule s slope found).Keeps Invariant.none
      (Settles problem rule s slope found) := by
  refine .ite (fun hstuck => .ite (fun hsince => ?_) fun hsince => ?_) fun hmoves => ?_
  · exact .pure (.ended hstuck hsince)
  · exact .pure (.retry hstuck hsince)
  · refine .bind (Run.keeps_gives _) fun gradient hgradient => ?_
    refine .bind (Run.keeps_gives _) fun smoothed hsmoothed => ?_
    exact .pure (.accepted (Bool.of_not_eq_true hmoves) hgradient hsmoothed)

theorem rounds_of_searching {start : α} {manner : Ray.Rule α}
    (h : rule.searching start = .ok manner) : manner.rounds = rounds := by
  obtain ⟨_, -, h⟩ := Fault.bind_eq_ok h
  obtain ⟨_, -, h⟩ := Fault.bind_eq_ok h
  cases h
  rfl

/-- A search has two phases. -/
theorem seek_keeps (problem : Problem α σ n) (rule : Rule α) (s : State α n) (slope : α) :
    (seek problem rule s slope).Keeps Invariant.none fun found =>
      found.evaluations ≤ 2 * rounds := by
  refine .check fun manner hmanner => ?_
  rw [← rounds_of_searching hmanner]
  exact Ray.search_evaluations _ manner _

/-- What an iteration can come to. -/
inductive Turns (problem : Problem α σ n) (rule : Rule α) (limit : Nat) (s : State α n) :
    Run.Round (State α n) (Search α n) (Report α n) → Prop
  | criterion (holds : (problem.stop s.gradient s.iterations).Gives true) :
      Turns problem rule limit s (.done none (s.report .criterion))
  | budget (spent : limit ≤ s.iterations) :
      Turns problem rule limit s (.done none (s.report .budget))
  | noDescent (left : s.iterations < limit) (haim : aim s = none) :
      Turns problem rule limit s (.done none (s.report .noDescent))
  | search {t : State α n} {slope : α} {found : Ray.Found α} {leg : Leg α n}
      (left : s.iterations < limit) (haim : aim s = some (t, slope))
      (work : found.evaluations ≤ 2 * rounds)
      (settles : Settles problem rule t slope found leg) :
      Turns problem rule limit s (Search.round ⟨s, t, slope, found, leg⟩)

theorem turn_keeps (problem : Problem α σ n) (rule : Rule α) (limit : Nat) (s : State α n) :
    (turn problem rule limit s).Keeps Invariant.none (Turns problem rule limit s) := by
  refine .bind (Run.keeps_gives _) fun holds hholds => ?_
  refine .ite (fun htrue => ?_) fun _ => .ite (fun spent => ?_) fun left => ?_
  · subst htrue
    exact .pure (.criterion hholds)
  · exact .pure (.budget spent)
  · cases haim : aim s with
    | none => exact .pure (.noDescent (Nat.lt_of_not_le left) haim)
    | some p =>
      refine .bind (seek_keeps problem rule p.1 p.2) fun found hwork => ?_
      refine .bind (settle_keeps problem rule p.1 p.2 found) fun leg hleg => ?_
      exact .pure (.search (Nat.lt_of_not_le left) haim hwork hleg)

/-- A search that the loop goes on from starts at the head of its iteration and was settled. -/
theorem Turns.again {search : Search α n} (h : Turns problem rule limit s (.again search t)) :
    search.head = s ∧ s.iterations < limit ∧ aim s = some (search.aimed, search.slope) ∧
      search.found.evaluations ≤ 2 * rounds ∧
      Settles problem rule search.aimed search.slope search.found search.leg ∧
      search.round = .again search t ∧ t = search.next := by
  generalize hround : Run.Round.again search t = round at h
  cases h with
  | criterion | budget | noDescent => cases hround
  | search left haim work settles =>
    cases settles with
    | accepted hmoves hgradient hsmoothed =>
      cases hround
      exact ⟨rfl, left, haim, work, .accepted hmoves hgradient hsmoothed, rfl, rfl⟩
    | retry hstuck hsince =>
      cases hround
      exact ⟨rfl, left, haim, work, .retry hstuck hsince, rfl, rfl⟩
    | ended => cases hround

/-! ## The loop -/

/-- After a restart a search without progress ends the run, so nothing is tried a third time. -/
theorem iterate_of_restarted (h : s.sinceRestart = 0) (budget : Nat) :
    iterate problem rule (budget + 1) s = (do
      if ← problem.stop s.gradient s.iterations then return s.report .criterion
      else
        match ← leg problem rule s with
        | .accepted t => iterate problem rule budget t
        | .ended exit t => return t.report exit
        | .retry t => return t.report .noProgress) := by
  rw [iterate]
  refine bind_congr fun holds => ?_
  split
  · rfl
  · rw [leg_eq]
    cases haim : aim s with
    | none => rfl
    | some p =>
      obtain ⟨t, slope⟩ := p
      have ht : t.sinceRestart = 0 := by
        obtain rfl | rfl := aimed_eq haim
        · exact h
        · rfl
      simp only [bind_assoc]
      refine bind_congr fun found => ?_
      have ht : (t.counted found.evaluations).sinceRestart = 0 := ht
      simp only [settle, if_pos ht]
      split <;> simp only [bind_assoc, pure_bind]

/-- **The loop repeats its iterations** until one of them ends it: a search that is tried again is
an iteration of its own. -/
theorem iterate_loops (problem : Problem α σ n) (rule : Rule α) (limit : Nat) :
    Run.Loops (turn problem rule limit) fun s =>
      iterate problem rule (limit - s.iterations) s := by
  intro s
  dsimp only
  unfold turn
  rw [bind_assoc]
  by_cases hlimit : limit ≤ s.iterations
  · rw [Nat.sub_eq_zero_of_le hlimit, iterate]
    refine bind_congr fun holds => ?_
    split
    · rfl
    · rfl
  · obtain ⟨budget, hbudget⟩ : ∃ budget, limit - s.iterations = budget + 1 :=
      Nat.exists_eq_add_one.2 (by omega)
    rw [hbudget, iterate]
    refine bind_congr fun holds => ?_
    split
    · rfl
    · rw [leg_eq]
      cases haim : aim s with
      | none => rfl
      | some p =>
        obtain ⟨t, slope⟩ := p
        have ht : t.iterations = s.iterations := by obtain rfl | rfl := aimed_eq haim <;> rfl
        simp only [bind_assoc]
        refine bind_congr fun found => ?_
        simp only [settle]
        split
        · split
          · rfl
          · -- the second try has the same budget as the first one
            have hu : limit - (t.counted found.evaluations).restarted.iterations = budget + 1 :=
              (congrArg (limit - ·) ht).trans hbudget
            simp only [pure_bind, Search.round, hu]
            exact (iterate_of_restarted (s := (t.counted found.evaluations).restarted) rfl
              budget).symm
        · have hu (previous : Previous α) (point gradient smoothed : Vec α n) :
              limit - (advance rule (t.counted found.evaluations) previous point gradient
                smoothed).iterations = budget := by
            simp only [advance, State.counted, ht]
            omega
          simp only [bind_assoc, pure_bind, Search.round, hu]

/-- The state that a minimization starts from. -/
def opening (problem : Problem α σ n) (start : Vec α n) : Run α σ (State α n) := do
  let gradient ← problem.gradient start
  let smoothed ← problem.precondition start gradient
  return {
    point := start, gradient, smoothed
    product := Vec.dot gradient smoothed
    direction := -smoothed
    sinceRestart := 0
    previous := none
    iterations := 0
    evaluations := 1 }

theorem solve_eq_opening (problem : Problem α σ n) (rule : Rule α) (budget : Nat)
    (start : Vec α n) : solve problem rule budget start =
      opening problem start >>= iterate problem rule budget := by
  simp only [solve, opening, bind_assoc, pure_bind]

/-- A minimization is its loop from its opening on, with what is left of the budget. -/
theorem solve_eq_loop (problem : Problem α σ n) (rule : Rule α) (budget : Nat)
    (start : Vec α n) : solve problem rule budget start = opening problem start >>= fun s =>
      iterate problem rule (budget - s.iterations) s := by
  simp only [solve, opening, bind_assoc, pure_bind, Nat.sub_zero]

end

/-! ## The rounds of what callers give -/

variable {α σ : Type} [Numeral α] {gradient : VectorField α σ} {start : Datum α}
  {options : Options α σ} {outside : Region α σ} {preconditioner : Option (Tensor α σ)}
  {task : Task α σ} {settings : Settings α σ}

/-- From a session on, a minimization has come to the head of an iteration in a state and another
session, after some searches. -/
def Task.Reaches (task : Task α σ) (session : Session α σ)
    (searches : List (Search α task.unknowns)) (s : State α task.unknowns)
    (session' : Session α σ) : Prop :=
  ∃ first session₁, (opening task.problem task.start).run session = .ok first session₁ ∧
    Run.Path (turn task.problem task.rule task.budget) first session₁ searches s session'

/-- A minimization goes on from where it has come to. -/
theorem Task.Reaches.run_solve {session session' : Session α σ}
    {searches : List (Search α task.unknowns)} {s : State α task.unknowns}
    (h : task.Reaches session searches s session') :
    (solve task.problem task.rule task.budget task.start).run session =
      (iterate task.problem task.rule (task.budget - s.iterations) s).run session' := by
  obtain ⟨first, session₁, hopening, hpath⟩ := h
  rw [solve_eq_loop, EStateM.run_bind, hopening]
  exact hpath.run_loop (iterate_loops _ _ _)

end Conjugate

end Descent
