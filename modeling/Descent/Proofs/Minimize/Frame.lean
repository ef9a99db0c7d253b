import Descent.Proofs.LinearSystem.Frame
import Descent.Proofs.Minimize.Outer
import Descent.Proofs.Minimize.Work

/-!
# Minimizations in other coordinates

Both methods see vectors through products and norms only, and compare points for equality. So from
corresponding points they take the same branches in every frame: searches try the same lengths and
see the same slopes, inner solves make the same iterations, and restarts and second tries come at
the same time.

* `Conjugate.Problem.InFrame`, `Newton.Problem.InFrame`: a problem as it is seen in a frame;
  `ray_placed`: its rays are the same rays;
* `Conjugate.turn_placed`, `Newton.turn_placed`: one iteration of a method;
* `Conjugate.solve_placed`, `Newton.solve_placed`: the minimizations from corresponding points;
* `Conjugate.trace`, `Newton.trace`: minimizations with the searches they make;
  `Conjugate.trace_placed`, `Newton.trace_placed`: these are the same as well.
-/

namespace Descent

variable {σ : Type} {n : Nat} (F : Frame n)

/-- **A ray of a problem in a frame is the ray outside:** it has the same slopes and leaves the
domain at the same lengths. -/
theorem ray_placed {gradient gradient' : Vec ℝ n → Run ℝ σ (Vec ℝ n)}
    {outside outside' : Vec ℝ n → Run ℝ σ Bool}
    (hgradient : ∀ x, Run.Sends F.turn (gradient x) (gradient' (F.place x)))
    (houtside : ∀ x, outside' (F.place x) = outside x) (x d : Vec ℝ n) :
    Ray.through gradient' outside' (F.place x) (F.turn d) = Ray.through gradient outside x d := by
  have hslope (length : ℝ) :
      (gradient' (Vec.along (F.place x) length (F.turn d)) >>= fun g =>
        pure (Vec.dot g (F.turn d))) =
        gradient (Vec.along x length d) >>= fun g => pure (Vec.dot g d) := by
    rw [← F.place_along, show gradient' _ = _ from hgradient _, bind_map_left]
    exact bind_congr fun g => congrArg pure (F.dot_turn g d)
  have hinside (length : ℝ) : outside' (Vec.along (F.place x) length (F.turn d)) =
      outside (Vec.along x length d) := by
    rw [← F.place_along, houtside]
  unfold Ray.through
  congr 1
  · exact funext hslope
  · exact funext hinside

/-- A length is too small to lead to another point in every frame or in none. -/
theorem along_beq_placed (x : Vec ℝ n) (length : ℝ) (d : Vec ℝ n) :
    (Vec.along (F.place x) length (F.turn d) == F.place x) = (Vec.along x length d == x) := by
  rw [← F.place_along, Bool.eq_iff_iff, beq_iff_eq, beq_iff_eq, F.place_injective.eq_iff]

/-- A report in the frame. -/
noncomputable def Minimize.Report.placed {ε : Type} (report : Minimize.Report ε ℝ n) :
    Minimize.Report ε ℝ n :=
  { report with point := F.place report.point, gradient := F.turn report.gradient }

section

variable {ε : Type} (report : Minimize.Report ε ℝ n)

@[simp] theorem Minimize.Report.iterations_placed :
    (report.placed F).iterations = report.iterations := rfl

@[simp] theorem Minimize.Report.evaluations_placed :
    (report.placed F).evaluations = report.evaluations := rfl

@[simp] theorem Minimize.Report.exit_placed : (report.placed F).exit = report.exit := rfl

@[simp] theorem Minimize.Report.norm_placed :
    Vec.norm (report.placed F).gradient = Vec.norm report.gradient :=
  F.norm_turn report.gradient

end

namespace Conjugate

/-! ## Conjugate gradients -/

section

variable {α σ : Type} {n : Nat} [Numeral α]

/-- A minimization with the searches it makes. -/
def trace (problem : Problem α σ n) (rule : Rule α) (budget : Nat) (start : Vec α n) :
    Run α σ (List (Search α n) × Report α n) :=
  Run.tracedFrom (opening problem start) (turn problem rule budget)
    (fun s => iterate problem rule (budget - s.iterations) s) (State.searchesLeft budget)

/-- A minimization does the same with its searches. -/
theorem snd_trace (problem : Problem α σ n) (rule : Rule α) (budget : Nat) (start : Vec α n) :
    Prod.snd <$> trace problem rule budget start = solve problem rule budget start := by
  rw [trace, (iterate_loops problem rule budget).snd_tracedFrom, solve_eq_loop]

/-- There are no more searches than these, however many rounds are looked at. -/
theorem trace_eq (problem : Problem α σ n) (rule : Rule α) (budget : Nat) (start : Vec α n)
    {count : Nat} (hcount : 2 * budget ≤ count) :
    trace problem rule budget start = opening problem start >>= Run.traced
      (turn problem rule budget) (fun s => iterate problem rule (budget - s.iterations) s)
        count := by
  refine (turn_descends problem rule budget).tracedFrom_eq (iterate_loops problem rule budget)
    ((Run.keeps_none _).mono fun s _ => ?_)
  have hleft : s.searchesLeft budget ≤ 2 * (budget - s.iterations) := Nat.sub_le _ _
  omega

end

/-- The second problem is the first one as it is seen in the frame. -/
structure Problem.InFrame (first second : Problem ℝ σ n) : Prop where
  gradient : ∀ x, Run.Sends F.turn (first.gradient x) (second.gradient (F.place x))
  precondition : ∀ x g,
    Run.Sends F.turn (first.precondition x g) (second.precondition (F.place x) (F.turn g))
  outside : ∀ x, second.outside (F.place x) = first.outside x
  stop : ∀ g k, second.stop (F.turn g) k = first.stop g k

noncomputable def State.placed (s : State ℝ n) : State ℝ n :=
  { s with
    point := F.place s.point
    gradient := F.turn s.gradient
    smoothed := F.turn s.smoothed
    direction := F.turn s.direction }

noncomputable def Leg.placed : Leg ℝ n → Leg ℝ n
  | .accepted s => .accepted (s.placed F)
  | .retry s => .retry (s.placed F)
  | .ended exit s => .ended exit (s.placed F)

noncomputable def Search.placed (search : Search ℝ n) : Search ℝ n :=
  { search with
    head := search.head.placed F
    aimed := search.aimed.placed F
    leg := search.leg.placed F }

variable [RealText]

theorem State.steepest_placed (s : State ℝ n) : (s.placed F).steepest = s.steepest.placed F := by
  simp only [steepest, placed, F.turn_neg]

theorem aim_placed (s : State ℝ n) :
    aim (s.placed F) = (aim s).map (Prod.map (State.placed F) id) := by
  have hslope : Vec.dot (s.placed F).gradient (s.placed F).direction =
      Vec.dot s.gradient s.direction :=
    F.dot_turn s.gradient s.direction
  have hproduct : (s.placed F).product = s.product := rfl
  unfold aim
  rw [hslope, hproduct, s.steepest_placed F]
  dsimp only
  rw [apply_ite (Option.map _), apply_ite (Option.map _)]
  rfl

theorem startLength_placed (previous : Option (Previous ℝ)) (slope : ℝ) (d : Vec ℝ n) :
    startLength previous slope (F.turn d) = startLength previous slope d := by
  simp only [startLength, F.norm_turn]

theorem beta_placed (s : State ℝ n) (gradient smoothed : Vec ℝ n) :
    beta (s.placed F) (F.turn gradient) (F.turn smoothed) = beta s gradient smoothed := by
  simp only [beta, State.placed, ← F.turn_sub, F.dot_turn]

theorem advance_placed (rule : Rule ℝ) (s : State ℝ n) (previous : Previous ℝ)
    (point gradient smoothed : Vec ℝ n) :
    advance rule (s.placed F) previous (F.place point) (F.turn gradient) (F.turn smoothed) =
      (advance rule s previous point gradient smoothed).placed F := by
  unfold advance
  rw [beta_placed, F.dot_turn]
  dsimp only [State.placed]
  rw [apply_ite F.turn, F.turn_along, F.turn_neg]

variable {F} {first second : Problem ℝ σ n}

/-- The search from a state is the same. -/
theorem seek_placed (h : first.InFrame F second) (rule : Rule ℝ) (s : State ℝ n) (slope : ℝ) :
    seek second rule (s.placed F) slope = seek first rule s slope := by
  simp only [seek, State.placed, ray_placed F h.gradient h.outside, startLength_placed, F.dot_turn]

theorem settle_placed (h : first.InFrame F second) (rule : Rule ℝ) (s : State ℝ n) (slope : ℝ)
    (found : Ray.Found ℝ) :
    Run.Sends (Leg.placed F) (settle first rule s slope found)
      (settle second rule (s.placed F) slope found) := by
  unfold settle
  rw [show (s.placed F).counted found.evaluations = (s.counted found.evaluations).placed F from rfl]
  dsimp only
  generalize s.counted found.evaluations = t
  -- a frame takes different points to different points, so both searches are stuck or none is
  have hstuck : (t.placed F).stuck found.length = t.stuck found.length :=
    congrArg (found.length == 0 || ·) (along_beq_placed F t.point found.length t.direction)
  have hrestarted : (t.placed F).restarted = t.restarted.placed F := by
    unfold State.restarted
    rw [t.steepest_placed F]
    rfl
  have hpoint : Vec.along (t.placed F).point found.length (t.placed F).direction =
      F.place (Vec.along t.point found.length t.direction) :=
    (F.place_along t.point found.length t.direction).symm
  rw [hstuck, hrestarted, hpoint]
  refine .ite Iff.rfl (fun _ => ?_) fun _ => ?_
  · exact .ite Iff.rfl (fun _ => .pure rfl) fun _ => .pure rfl
  · refine .bind (h.gradient _) fun gradient => ?_
    refine .bind (h.precondition _ gradient) fun smoothed => .pure ?_
    rw [advance_placed]
    rfl

/-- **An iteration takes the same branches in every frame.** -/
theorem turn_placed (h : first.InFrame F second) (rule : Rule ℝ) (limit : Nat) (s : State ℝ n) :
    Run.Sends (Run.Round.map (State.placed F) (Search.placed F) (Minimize.Report.placed F))
      (turn first rule limit s) (turn second rule limit (s.placed F)) := by
  unfold turn
  rw [show second.stop (s.placed F).gradient (s.placed F).iterations =
    first.stop s.gradient s.iterations from h.stop s.gradient s.iterations]
  refine .after _ fun holds => ?_
  refine .ite Iff.rfl (fun _ => .pure rfl) fun _ => ?_
  refine .ite Iff.rfl (fun _ => .pure rfl) fun _ => ?_
  rw [aim_placed]
  cases aim s with
  | none => exact .pure rfl
  | some p =>
    obtain ⟨t, slope⟩ := p
    dsimp only [Option.map_some, Prod.map_apply, id_eq]
    rw [seek_placed h]
    refine .after _ fun found => ?_
    refine .bind (settle_placed h rule t slope found) fun leg => .pure ?_
    cases leg <;> rfl

theorem opening_placed (h : first.InFrame F second) (start : Vec ℝ n) :
    Run.Sends (State.placed F) (opening first start) (opening second (F.place start)) := by
  refine .bind (h.gradient start) fun gradient => ?_
  refine .bind (h.precondition start gradient) fun smoothed => .pure ?_
  rw [F.dot_turn, ← F.turn_neg]
  rfl

theorem iterate_placed (h : first.InFrame F second) (rule : Rule ℝ) (budget : Nat)
    (s : State ℝ n) : Run.Sends (Minimize.Report.placed F) (iterate first rule budget s)
      (iterate second rule budget (s.placed F)) :=
  .budgeted (iterate_loops first rule) (iterate_loops second rule) (turn_descends first rule)
    (turn_placed h rule) (fun _ => rfl) budget s

/-- **A minimization in a frame is the minimization outside, in the frame.** -/
theorem solve_placed (h : first.InFrame F second) (rule : Rule ℝ) (budget : Nat)
    (start : Vec ℝ n) : Run.Sends (Minimize.Report.placed F) (solve first rule budget start)
      (solve second rule budget (F.place start)) := by
  rw [solve_eq_opening, solve_eq_opening]
  exact .bind (opening_placed h start) fun s => iterate_placed h rule budget s

/-- **The searches of a minimization in a frame are those outside, in the frame.** -/
theorem trace_placed (h : first.InFrame F second) (rule : Rule ℝ) (budget : Nat)
    (start : Vec ℝ n) :
    Run.Sends (Prod.map (List.map (Search.placed F)) (Minimize.Report.placed F))
      (trace first rule budget start) (trace second rule budget (F.place start)) :=
  .tracedFrom (opening_placed h start) (turn_placed h rule budget)
    (fun s => iterate_placed h rule (budget - s.iterations) s) fun _ => rfl

end Conjugate

namespace Newton

/-! ## Truncated Newton steps -/

section

variable {α σ : Type} {n : Nat} [Numeral α]

/-- A minimization with the outer iterations it makes. -/
def trace (problem : Problem α σ n) (rule : Rule α) (budget : Nat) (start : Vec α n) :
    Run α σ (List (Outer α n) × Report α n) :=
  Run.tracedFrom (opening problem start) (turn problem rule budget)
    (fun s => iterate problem rule (budget - s.iterations) s) fun s => budget - s.iterations

/-- A minimization does the same with its outer iterations. -/
theorem snd_trace (problem : Problem α σ n) (rule : Rule α) (budget : Nat) (start : Vec α n) :
    Prod.snd <$> trace problem rule budget start = solve problem rule budget start := by
  rw [trace, (iterate_loops problem rule budget).snd_tracedFrom, solve_eq_loop]

/-- There are no more outer iterations than these, however many rounds are looked at. -/
theorem trace_eq (problem : Problem α σ n) (rule : Rule α) (budget : Nat) (start : Vec α n)
    {count : Nat} (hcount : budget ≤ count) :
    trace problem rule budget start = opening problem start >>= Run.traced
      (turn problem rule budget) (fun s => iterate problem rule (budget - s.iterations) s) count :=
  (turn_descends problem rule budget).tracedFrom_eq (iterate_loops problem rule budget)
    ((Run.keeps_none _).mono fun _ _ => Nat.le_trans (Nat.sub_le _ _) hcount)

end

/-- The second problem is the first one as it is seen in the frame. -/
structure Problem.InFrame (first second : Problem ℝ σ n) : Prop where
  gradient : ∀ x, Run.Sends F.turn (first.gradient x) (second.gradient (F.place x))
  hessian : ∀ x, Run.Sends F.conjugate (first.hessian x) (second.hessian (F.place x))
  precondition : ∀ x,
    Run.Sends (Option.map F.conjugate) (first.precondition x) (second.precondition (F.place x))
  outside : ∀ x, second.outside (F.place x) = first.outside x
  stop : ∀ g k, second.stop (F.turn g) k = first.stop g k

noncomputable def State.placed (s : State ℝ n) : State ℝ n :=
  { s with point := F.place s.point, gradient := F.turn s.gradient }

noncomputable def Direction.turned (direction : Direction ℝ n) : Direction ℝ n :=
  { direction with step := F.turn direction.step }

noncomputable def Trial.placed (trial : Trial ℝ n) : Trial ℝ n :=
  { trial with point := F.place trial.point }

noncomputable def Tries.placed (tries : Tries ℝ n) : Tries ℝ n where
  first := tries.first.placed F
  second := tries.second.map (Trial.placed F)

noncomputable def Leg.placed : Leg ℝ n → Leg ℝ n
  | .accepted s => .accepted (s.placed F)
  | .ended s => .ended (s.placed F)

noncomputable def Outer.placed (outer : Outer ℝ n) : Outer ℝ n where
  inner := outer.inner.turned F
  tries := outer.tries.placed F
  leg := outer.leg.placed F

theorem Tries.last_placed (tries : Tries ℝ n) : (tries.placed F).last = tries.last.placed F := by
  obtain ⟨first, second⟩ := tries
  cases second <;> rfl

theorem Tries.trials_placed (tries : Tries ℝ n) :
    (tries.placed F).trials = tries.trials.map (Trial.placed F) := by
  obtain ⟨first, second⟩ := tries
  cases second <;> rfl

theorem Tries.evaluations_placed (tries : Tries ℝ n) :
    (tries.placed F).evaluations = tries.evaluations := by
  rw [evaluations, trials_placed, List.map_map]
  rfl

variable [RealText]

theorem innerTolerance_turn (rule : Rule ℝ) (g : Vec ℝ n) :
    innerTolerance rule (F.turn g) = innerTolerance rule g := by
  simp only [innerTolerance, F.norm_turn]

theorem steepest_turned (smoother : Option (LinearMap ℝ σ n)) (g : Vec ℝ n) :
    Run.Sends F.turn (steepest smoother g)
      (steepest (smoother.map F.conjugate) (F.turn g)) := by
  cases smoother with
  | none => exact .pure (F.turn_neg g).symm
  | some map =>
    exact .bind (F.conjugate_turn map g) fun z => .pure (F.turn_neg z).symm

theorem choose_turned (smoother : Option (LinearMap ℝ σ n)) (g : Vec ℝ n)
    (report : LinearSystem.Report ℝ n) :
    Run.Sends (Direction.turned F) (choose smoother g report)
      (choose (smoother.map F.conjugate) (F.turn g) (report.turned F)) := by
  have hslope : Vec.dot (F.turn g) (report.turned F).point = Vec.dot g report.point :=
    F.dot_turn g report.point
  refine .ite (by rw [hslope]) (fun _ => .pure rfl) fun _ => ?_
  exact .bind (steepest_turned F smoother g) fun step => .pure rfl

variable {F} {first second : Problem ℝ σ n}

theorem inner_placed (h : first.InFrame F second) (rule : Rule ℝ)
    (smoother : Option (LinearMap ℝ σ n)) (s : State ℝ n) :
    Run.Sends (LinearSystem.Report.turned F) (inner first rule smoother s)
      (inner second rule (smoother.map F.conjugate) (s.placed F)) := by
  refine .bind (h.hessian s.point) fun map => ?_
  -- the solve starts from zero, which is zero in every frame
  have htolerance : innerTolerance rule (s.placed F).gradient = innerTolerance rule s.gradient :=
    innerTolerance_turn F rule s.gradient
  have hrun := LinearSystem.run_turned F ⟨map, smoother⟩ (-s.gradient) (Vec.zeros n)
    (innerTolerance rule s.gradient) rule.innerBudget
  rw [F.turn_neg, F.turn_zeros] at hrun
  rw [htolerance]
  exact hrun

/-- The search along a step is the same. -/
theorem attempt_placed (h : first.InFrame F second) (rule : Rule ℝ) (s : State ℝ n)
    (step : Vec ℝ n) : Run.Sends (Trial.placed F) (attempt first rule s step)
      (attempt second rule (s.placed F) (F.turn step)) := by
  unfold attempt
  simp only [State.placed, ray_placed F h.gradient h.outside, F.dot_turn]
  refine .after _ fun found => .pure ?_
  simp only [Trial.placed, F.place_along, along_beq_placed]

theorem seek_placed (h : first.InFrame F second) (rule : Rule ℝ)
    (smoother : Option (LinearMap ℝ σ n)) (s : State ℝ n) (direction : Direction ℝ n) :
    Run.Sends (Tries.placed F) (seek first rule smoother s direction)
      (seek second rule (smoother.map F.conjugate) (s.placed F) (direction.turned F)) := by
  refine .bind (attempt_placed h rule s direction.step) fun trial => ?_
  refine .ite Iff.rfl (fun _ => .pure rfl) fun _ => ?_
  refine .ite Iff.rfl (fun _ => ?_) fun _ => .pure rfl
  refine .after _ fun _ => .bind (steepest_turned F smoother s.gradient) fun step => ?_
  exact .bind (attempt_placed h rule s step) fun second => .pure rfl

omit [RealText] in
theorem conclude_placed (h : first.InFrame F second) (s : State ℝ n) (tries : Tries ℝ n) :
    Run.Sends (Leg.placed F) (conclude first s tries)
      (conclude second (s.placed F) (tries.placed F)) := by
  unfold conclude
  rw [tries.last_placed F, tries.evaluations_placed F]
  refine .ite Iff.rfl (fun _ => ?_) fun _ => .pure rfl
  exact .bind (h.gradient tries.last.point) fun gradient => .pure rfl

/-- **An outer iteration in a frame is the one outside, in the frame.** -/
theorem survey_placed (h : first.InFrame F second) (rule : Rule ℝ) (s : State ℝ n) :
    Run.Sends (Outer.placed F) (survey first rule s) (survey second rule (s.placed F)) := by
  refine .bind (h.precondition s.point) fun smoother => ?_
  refine .bind (inner_placed h rule smoother s) fun report => ?_
  refine .bind (choose_turned F smoother s.gradient report) fun direction => ?_
  refine .bind (seek_placed h rule smoother s direction) fun tries => ?_
  exact .bind (conclude_placed h s tries) fun leg => .pure rfl

theorem turn_placed (h : first.InFrame F second) (rule : Rule ℝ) (limit : Nat) (s : State ℝ n) :
    Run.Sends (Run.Round.map (State.placed F) (Outer.placed F) (Minimize.Report.placed F))
      (turn first rule limit s) (turn second rule limit (s.placed F)) := by
  unfold turn
  rw [show second.stop (s.placed F).gradient (s.placed F).iterations =
    first.stop s.gradient s.iterations from h.stop s.gradient s.iterations]
  refine .after _ fun holds => ?_
  refine .ite Iff.rfl (fun _ => .pure rfl) fun _ => ?_
  refine .ite Iff.rfl (fun _ => .pure rfl) fun _ => ?_
  refine .bind (survey_placed h rule s) fun outer => .pure ?_
  obtain ⟨report, tries, leg⟩ := outer
  cases leg <;> rfl

theorem iterate_placed (h : first.InFrame F second) (rule : Rule ℝ) (budget : Nat)
    (s : State ℝ n) : Run.Sends (Minimize.Report.placed F) (iterate first rule budget s)
      (iterate second rule budget (s.placed F)) :=
  .budgeted (iterate_loops first rule) (iterate_loops second rule) (turn_descends first rule)
    (turn_placed h rule) (fun _ => rfl) budget s

omit [RealText] in
theorem opening_placed (h : first.InFrame F second) (start : Vec ℝ n) :
    Run.Sends (State.placed F) (opening first start) (opening second (F.place start)) :=
  .bind (h.gradient start) fun _ => .pure rfl

/-- **A minimization in a frame is the minimization outside, in the frame.** -/
theorem solve_placed (h : first.InFrame F second) (rule : Rule ℝ) (budget : Nat)
    (start : Vec ℝ n) : Run.Sends (Minimize.Report.placed F) (solve first rule budget start)
      (solve second rule budget (F.place start)) := by
  rw [solve_eq_opening, solve_eq_opening]
  exact .bind (opening_placed h start) fun s => iterate_placed h rule budget s

/-- **The outer iterations of a minimization in a frame are those outside, in the frame.** -/
theorem trace_placed (h : first.InFrame F second) (rule : Rule ℝ) (budget : Nat)
    (start : Vec ℝ n) :
    Run.Sends (Prod.map (List.map (Outer.placed F)) (Minimize.Report.placed F))
      (trace first rule budget start) (trace second rule budget (F.place start)) :=
  .tracedFrom (opening_placed h start) (turn_placed h rule budget)
    (fun s => iterate_placed h rule (budget - s.iterations) s) fun _ => rfl

end Newton

end Descent
