import Descent.Proofs.Minimize.Budget
import Descent.Proofs.Minimize.Heads
import Descent.Proofs.Minimize.Resume
import Descent.Proofs.Run.Settled

/-!
# What is known along a minimization

Functions that always give the same answers make the head of every iteration known: the gradient
there is the one that is answered at its point.

* `Conjugate.State.Known`, `Newton.State.Known`: the parts of a state are what is answered at its
  point; `Conjugate.Task.Reaches.known`, `Newton.Task.Reaches.known`.
* `Conjugate.Answered`, `Newton.Answered`: what an iteration from a known head can come to;
  `Conjugate.turn_answered`, `Newton.turn_answered`.
* `Conjugate.exists_publish_settles`, `Newton.announce_settles`: what is left to do after the report
  of a minimization.
-/

namespace Descent

/-! ## Conjugate gradients -/

namespace Conjugate

section

variable {α σ : Type} {n : Nat} [Numeral α] {I : Invariant α σ} {on : Logging.Source → Bool}
  {problem : Problem α σ n} {rule : Rule α} {limit : Nat} {s t : State α n} {slope : α}
  {found : Ray.Found α}

/-- The gradients of a state are what is answered at its point. -/
structure State.Known (I : Invariant α σ) (on : Logging.Source → Bool) (problem : Problem α σ n)
    (s : State α n) : Prop where
  gradient : (problem.gradient s.point).Settles I on (.ok s.gradient)
  smoothed : (problem.precondition s.point s.gradient).Settles I on (.ok s.smoothed)

theorem seek_compares (h : problem.Determined I on) (rule : Rule α) (s : State α n) (slope : α) :
    (Comparison.apart I on).Compares Eq (seek problem rule s slope)
      (seek problem rule s slope) := by
  refine .check fun manner _ => ?_
  exact (Ray.search_compares (Ray.through_compare h.gradient h.outside _ _) manner _).mono
    fun _ _ hfound => hfound.1

theorem opening_known (h : problem.Determined I on) (start : Vec α n) :
    Run.Triple (·.Meets I on) (opening problem start)
      (fun s session => session.Meets I on ∧ s.Known I on problem)
      fun _ session => session.Meets I on := by
  refine .bind (h.gradient start trivial).settled fun gradient session hgradient => ?_
  refine Run.Triple.bind (h.precondition start gradient trivial).settled
    (fun smoothed => ?_) session hgradient.1
  exact .pure fun session hsmoothed => ⟨hsmoothed.1, hgradient.2, hsmoothed.2⟩

/-- What follows from a search at a known state is known again. -/
theorem settle_known (h : problem.Determined I on) (hs : s.Known I on problem) (rule : Rule α)
    (slope : α) (found : Ray.Found α) :
    Run.Triple (·.Meets I on) (settle problem rule s slope found)
      (fun leg session => session.Meets I on ∧ leg.state.Known I on problem)
      fun _ session => session.Meets I on := by
  have hstays (leg : Leg α n) (hpoint : leg.state.point = s.point)
      (hgradient : leg.state.gradient = s.gradient) (hsmoothed : leg.state.smoothed = s.smoothed) :
      leg.state.Known I on problem := by
    constructor
    · rw [hpoint, hgradient]
      exact hs.gradient
    · rw [hpoint, hgradient, hsmoothed]
      exact hs.smoothed
  refine .ite (fun _ => .ite (fun _ => ?_) fun _ => ?_) fun _ => ?_
  · exact .pure fun _ hsession => ⟨hsession, hstays (.ended .noProgress _) rfl rfl rfl⟩
  · exact .pure fun _ hsession => ⟨hsession, hstays (.retry _) rfl rfl rfl⟩
  · refine .bind (h.gradient _ trivial).settled fun gradient session hgradient => ?_
    refine Run.Triple.bind (h.precondition _ gradient trivial).settled
      (fun smoothed => ?_) session hgradient.1
    exact .pure fun session hsmoothed => ⟨hsmoothed.1, hgradient.2, hsmoothed.2⟩

theorem State.Known.aimed (hs : s.Known I on problem) (h : aim s = some (t, slope)) :
    t.Known I on problem := by
  obtain rfl | rfl := aimed_eq h
  · exact hs
  · exact ⟨hs.gradient, hs.smoothed⟩

/-- What an iteration from a known head can come to. -/
inductive Answered (I : Invariant α σ) (on : Logging.Source → Bool) (problem : Problem α σ n)
    (rule : Rule α) (limit : Nat) (s : State α n) :
    Run.Round (State α n) (Search α n) (Report α n) → Prop
  | criterion (holds : (problem.stop s.gradient s.iterations).Settles I on (.ok true)) :
      Answered I on problem rule limit s (.done none (s.report .criterion))
  | budget (spent : limit ≤ s.iterations) :
      Answered I on problem rule limit s (.done none (s.report .budget))
  | noDescent (haim : aim s = none) :
      Answered I on problem rule limit s (.done none (s.report .noDescent))
  | search {t : State α n} {slope : α} {found : Ray.Found α} {leg : Leg α n}
      (haim : aim s = some (t, slope))
      (hfound : (seek problem rule t slope).Settles I on (.ok found))
      (hleg : leg.state.Known I on problem) (settles : Settles problem rule t slope found leg) :
      Answered I on problem rule limit s (Search.round ⟨s, t, slope, found, leg⟩)

/-- **An iteration answers for what it comes to.** -/
theorem turn_answered (h : problem.Determined I on) (rule : Rule α) (limit : Nat)
    (hs : s.Known I on problem) :
    Run.Triple (·.Meets I on) (turn problem rule limit s)
      (fun r session => session.Meets I on ∧ Answered I on problem rule limit s r)
      fun _ session => session.Meets I on := by
  refine .bind (h.stop s.gradient s.iterations).settled fun holds session hholds => ?_
  refine Run.Triple.ite (P := (·.Meets I on)) (fun htrue => ?_) (fun _ => ?_) session hholds.1
  · subst htrue
    exact .pure fun _ hsession => ⟨hsession, .criterion hholds.2⟩
  · refine .ite (fun spent => .pure fun _ hsession => ⟨hsession, .budget spent⟩) fun _ => ?_
    cases haim : aim s with
    | none => exact .pure fun _ hsession => ⟨hsession, .noDescent haim⟩
    | some p =>
      refine .bind (seek_compares h rule p.1 p.2).settled fun found session hfound => ?_
      refine Run.Triple.bind ((settle_known h (hs.aimed haim) rule p.2 found).and_keeps
        (settle_keeps problem rule p.1 p.2 found)) (fun leg => ?_) session hfound.1
      exact .pure fun _ hleg => ⟨hleg.1.1, .search haim hfound.2 hleg.1.2 hleg.2⟩

theorem Answered.again {search : Search α n}
    (h : Answered I on problem rule limit s (.again search t)) : t.Known I on problem := by
  generalize hround : Run.Round.again search t = round at h
  cases h with
  | criterion | budget | noDescent => cases hround
  | @search _ _ _ leg _ _ hleg _ =>
    cases leg with
    | accepted u | retry u =>
      cases hround
      exact hleg
    | ended exit u => cases hround

end

/-! ## Minimizations of what callers give -/

section

variable {α σ : Type} [Numeral α] {I : Invariant α σ} {on : Logging.Source → Bool} {task : Task α σ}
  {session session' : Session α σ} {searches : List (Search α task.unknowns)}
  {s : State α task.unknowns} {report : Report α task.unknowns}

/-- Wherever a minimization has come to, the gradients are known. -/
theorem Task.Reaches.known (h : task.problem.Determined I on) (hsession : session.Meets I on)
    (hreaches : task.Reaches session searches s session') :
    session'.Meets I on ∧ s.Known I on task.problem := by
  obtain ⟨first, session₁, hopening, hpath⟩ := hreaches
  exact hpath.meets ((opening_known h task.start).of_ok hsession hopening)
    (fun y hy => turn_answered h task.rule task.budget hy) fun _ _ _ hagain => hagain.again

variable {value : Option (ScalarField α σ)} {gradient : VectorField α σ} {start : Datum α}
  {options : Options α σ} {outside : Region α σ} {preconditioner : Option (Tensor α σ)}
  {criterion : Criterion α σ}

/-- What follows the report of a minimization depends on the point alone, and returns it. -/
theorem exists_publish_settles (hvalue : ∀ f ∈ value, Run.Determined I on f) :
    ∃ finish : Array α → Except Fault (Array α),
      (∀ {n : Nat} (report : Report α n),
        (publish value report).Settles I on (finish report.point.toArray)) ∧
      ∀ x y, finish x = .ok y → y = x := by
  have hdebug {n : Nat} (report : Report α n) (a : α) :
      Run.Settles I on (do
        Run.debug .conjugate fun _ => report.line a
        return report.point.toArray) (.ok report.point.toArray) :=
    Run.Settles.bind_ok (.debug _ _) .pure
  cases value with
  | none =>
    refine ⟨.ok, fun report => ?_, fun x y hy => (Except.ok.inj hy).symm⟩
    refine .bind_ok (.debugEnabled _) ?_
    cases on .conjugate with
    | false => exact .pure
    | true => exact .bind_ok .pure (hdebug report _)
  | some f =>
    choose answer hanswer using hvalue f rfl
    refine ⟨fun x => if on .conjugate then answer x >>= fun _ => .ok x else .ok x, fun report => ?_,
      fun x y hy => ?_⟩
    · refine .bind_ok (.debugEnabled _) ?_
      cases on .conjugate with
      | false => exact .pure
      | true => exact .bind (hanswer _) fun a => hdebug report a
    · split at hy
      · obtain ⟨_, -, hy⟩ := Fault.bind_eq_ok hy
        exact (Except.ok.inj hy).symm
      · exact (Except.ok.inj hy).symm

end

end Conjugate

/-! ## Truncated Newton steps -/

namespace Newton

section

variable {α σ : Type} {n : Nat} [Numeral α] {I : Invariant α σ} {on : Logging.Source → Bool}
  {problem : Problem α σ n} {rule : Rule α} {limit : Nat} {s t : State α n}
  {smoother : Option (LinearMap α σ n)}

/-- The gradient of a state is what is answered at its point. -/
def State.Known (I : Invariant α σ) (on : Logging.Source → Bool) (problem : Problem α σ n)
    (s : State α n) : Prop :=
  (problem.gradient s.point).Settles I on (.ok s.gradient)

/-- The preconditioned gradient at a point. -/
def Problem.smooth (problem : Problem α σ n) (x g : Vec α n) : Run α σ (Vec α n) := do
  match ← problem.precondition x with
  | none => return g
  | some apply => apply g

/-- The steepest descent goes against the preconditioned gradient. -/
theorem steepest_eq_smooth (problem : Problem α σ n) (x g : Vec α n) :
    (problem.precondition x >>= fun smoother => steepest smoother g) =
      (fun z => -z) <$> problem.smooth x g := by
  rw [Problem.smooth, map_bind]
  refine bind_congr fun smoother => ?_
  cases smoother <;> rfl

omit [Numeral α] in
theorem smooth_compares (h : problem.Determined I on) (x g : Vec α n) :
    (Comparison.apart I on).Compares Eq (problem.smooth x g) (problem.smooth x g) := by
  refine .bind (h.precondition x trivial) fun smoother smoother' hsmoother => ?_
  cases hsmoother with
  | none => exact .pure rfl
  | some hmap => exact hmap g

theorem inner_compares (h : problem.Determined I on) (rule : Rule α)
    (hsmoother : Option.Rel (LinearMap.Compare (.apart I on)) smoother smoother) (s : State α n) :
    (Comparison.apart I on).Compares Eq (inner problem rule smoother s)
      (inner problem rule smoother s) :=
  .bind (h.hessian s.point trivial) fun _ _ hhessian =>
    LinearSystem.run_compares ⟨hhessian, hsmoother⟩ _ _ _ _

/-- A step that does not solve the Newton system is the steepest one. -/
theorem choose_answered (hsmoother : Option.Rel (LinearMap.Compare (.apart I on)) smoother smoother)
    (g : Vec α n) (report : LinearSystem.Report α n) :
    Run.Triple (·.Meets I on) (choose smoother g report)
      (fun direction session => session.Meets I on ∧ (direction.isNewton = false →
        (steepest smoother g).Settles I on (.ok direction.step)))
      fun _ session => session.Meets I on := by
  refine .ite (fun _ => .pure fun _ hsession => ⟨hsession, nofun⟩) fun _ => ?_
  refine .bind (steepest_compares hsmoother g).settled fun step => ?_
  exact .pure fun _ hstep => ⟨hstep.1, fun _ => hstep.2⟩

/-- **Searches that make no progress end with one along the steepest descent.** -/
theorem seek_answered (h : problem.Determined I on) (rule : Rule α)
    (hsmoother : Option.Rel (LinearMap.Compare (.apart I on)) smoother smoother) (s : State α n)
    {direction : Direction α n} (hdirection : direction.isNewton = false →
      (steepest smoother s.gradient).Settles I on (.ok direction.step)) :
    Run.Triple (·.Meets I on) (seek problem rule smoother s direction)
      (fun tries session => session.Meets I on ∧ (tries.last.moved = false → ∃ step,
        (steepest smoother s.gradient).Settles I on (.ok step) ∧
          (attempt problem rule s step).Settles I on (.ok tries.last)))
      fun _ session => session.Meets I on := by
  have hattempt (step : Vec α n) :
      (Comparison.apart I on).Compares Eq (attempt problem rule s step)
        (attempt problem rule s step) :=
    (attempt_compares h rule s step).mono fun _ _ htrial => htrial.1
  refine .bind (hattempt direction.step).settled fun first session hfirst => ?_
  refine Run.Triple.ite (P := (·.Meets I on)) (fun hmoved => ?_) (fun _ => ?_) session hfirst.1
  · exact .pure fun _ hsession => ⟨hsession, fun hstuck => absurd (hmoved.symm.trans hstuck) nofun⟩
  refine .ite (fun _ => ?_) fun hsteepest => ?_
  · refine .bind (Comparison.Compares.debug _ _).settled fun _ session hdebug => ?_
    refine Run.Triple.bind (steepest_compares hsmoother s.gradient).settled
      (fun step session hstep => ?_) session hdebug.1
    refine Run.Triple.bind (hattempt step).settled (fun second => ?_) session hstep.1
    exact .pure fun _ hsecond => ⟨hsecond.1, fun _ => ⟨step, hstep.2, hsecond.2⟩⟩
  · exact .pure fun _ hsession => ⟨hsession, fun _ =>
      ⟨direction.step, hdirection (Bool.eq_false_of_not_eq_true hsteepest), hfirst.2⟩⟩

/-- What an outer iteration from a known head can come to. -/
inductive Answered (I : Invariant α σ) (on : Logging.Source → Bool) (problem : Problem α σ n)
    (rule : Rule α) (limit : Nat) (s : State α n) :
    Run.Round (State α n) (Outer α n) (Report α n) → Prop
  | criterion (holds : (problem.stop s.gradient s.iterations).Settles I on (.ok true)) :
      Answered I on problem rule limit s (.done none (s.report .criterion))
  | budget (spent : limit ≤ s.iterations) :
      Answered I on problem rule limit s (.done none (s.report .budget))
  | accepted {outer : Outer α n} {t : State α n} (known : t.Known I on problem) :
      Answered I on problem rule limit s (.again outer t)
  | noProgress {outer : Outer α n} {evaluations : Nat} {smoothed : Vec α n}
      (stuck : outer.tries.last.moved = false)
      (steepest : (problem.smooth s.point s.gradient).Settles I on (.ok smoothed))
      (tried : (attempt problem rule s (-smoothed)).Settles I on (.ok outer.tries.last)) :
      Answered I on problem rule limit s
        (.done (some outer) (State.report { s with evaluations } .noProgress))

/-- What an outer iteration that is not ended before its searches can come to. -/
theorem survey_answered (h : problem.Determined I on) (rule : Rule α) (limit : Nat)
    (s : State α n) :
    Run.Triple (·.Meets I on) (survey problem rule s)
      (fun outer session => session.Meets I on ∧ Answered I on problem rule limit s outer.round)
      fun _ session => session.Meets I on := by
  refine .bind (h.precondition s.point trivial).observed fun smoother session hsmoother => ?_
  obtain ⟨hsession, hself, hobserved⟩ := hsmoother
  refine Run.Triple.bind (inner_compares h rule hself s).settled
    (fun report session hreport => ?_) session hsession
  refine Run.Triple.bind (choose_answered hself s.gradient report)
    (fun direction session hdirection => ?_) session hreport.1
  refine Run.Triple.bind (seek_answered h rule hself s hdirection.2)
    (fun tries session htries => ?_) session hdirection.1
  refine Run.Triple.bind (P := (·.Meets I on))
    (R := fun leg session => session.Meets I on ∧
      Answered I on problem rule limit s (Outer.round ⟨report, tries, leg⟩)) ?_
    (fun leg => .pure fun _ hleg => hleg) session htries.1
  refine .ite (fun _ => ?_) fun hstuck => ?_
  · refine .bind (h.gradient _ trivial).settled fun gradient => ?_
    exact .pure fun _ hgradient => ⟨hgradient.1, .accepted hgradient.2⟩
  · have hstuck : tries.last.moved = false := Bool.eq_false_of_not_eq_true hstuck
    obtain ⟨step, hstep, hlast⟩ := htries.2 hstuck
    have hsteepest := hobserved.bind (fun smoother => steepest smoother s.gradient) hstep
    rw [steepest_eq_smooth] at hsteepest
    obtain ⟨smoothed, hsmoothed, rfl⟩ := hsteepest.of_map
    exact .pure fun _ hsession => ⟨hsession,
      .noProgress hstuck (hsmoothed.settles (smooth_compares h _ _)) hlast⟩

/-- **An outer iteration answers for what it comes to.** -/
theorem turn_answered (h : problem.Determined I on) (rule : Rule α) (limit : Nat)
    (s : State α n) :
    Run.Triple (·.Meets I on) (turn problem rule limit s)
      (fun r session => session.Meets I on ∧ Answered I on problem rule limit s r)
      fun _ session => session.Meets I on := by
  refine .bind (h.stop s.gradient s.iterations).settled fun holds session hholds => ?_
  refine Run.Triple.ite (P := (·.Meets I on)) (fun htrue => ?_) (fun _ => ?_) session hholds.1
  · subst htrue
    exact .pure fun _ hsession => ⟨hsession, .criterion hholds.2⟩
  · refine .ite (fun spent => .pure fun _ hsession => ⟨hsession, .budget spent⟩) fun _ => ?_
    exact .bind (survey_answered h rule limit s) fun outer => .pure fun _ houter => houter

theorem Answered.again {outer : Outer α n}
    (h : Answered I on problem rule limit s (.again outer t)) : t.Known I on problem := by
  cases h with
  | accepted known => exact known

end

/-! ## Minimizations of what callers give -/

section

variable {α σ : Type} [Numeral α] {I : Invariant α σ} {on : Logging.Source → Bool} {task : Task α σ}
  {session session' : Session α σ} {outers : List (Outer α task.unknowns)}
  {s : State α task.unknowns} {report : Report α task.unknowns}

/-- Wherever a minimization has come to, the gradient is known. -/
theorem Task.Reaches.known (h : task.problem.Determined I on) (hsession : session.Meets I on)
    (hreaches : task.Reaches session outers s session') :
    session'.Meets I on ∧ s.Known I on task.problem := by
  obtain ⟨gradient, session₁, hgradient, hpath⟩ := hreaches
  exact hpath.meets ((h.gradient task.start trivial).settled.of_ok hsession hgradient)
    (fun y _ => turn_answered h task.rule task.budget y) fun _ _ _ hagain => hagain.again

variable {gradient : VectorField α σ} {hessian : Tensor α σ} {start : Datum α}
  {outside : Region α σ} {options : Options α σ} {preconditioner : Option (Tensor α σ)}
  {criterion : Criterion α σ}

/-- The preconditioned gradient of what callers give. -/
theorem Problem.smooth_posed (n : Nat) (x g : Vec α n) :
    (Problem.posed n gradient hessian outside preconditioner criterion).smooth x g =
      Conjugate.smooth preconditioner x g := by
  cases preconditioner with
  | none => rfl
  | some tensor =>
    simp only [smooth, posed, smootherAt, Conjugate.smooth, bind_assoc, pure_bind]

theorem announce_settles (r : (n : Nat) × Report α n) :
    (announce r).Settles I on (.ok r.2.point.toArray) :=
  .bind_ok (.debug _ _) .pure

end

end Newton

/-! ## Functions without effects -/

section

variable {α σ β : Type} {I : Invariant α σ} {on : Logging.Source → Bool}

theorem Run.Determined.of_pure (f : Array α → β) :
    Run.Determined I on fun x => (pure (f x) : Run α σ β) :=
  fun x => ⟨.ok (f x), .pure⟩

variable [Numeral α]

theorem Tensor.determined_identity :
    (Tensor.constant (.operator .identity) : Tensor α σ).Determined I on :=
  fun _ _ => .pure ⟨rfl, fun _ => .pure rfl⟩

theorem CriterionLike.onGradient_norm (tolerance : α) :
    (CriterionLike.criterion (.gradientNorm tolerance) : CriterionLike α σ).OnGradient I on := by
  rintro _ ⟨⟩ n g
  exact ⟨.ok (decide (Vec.norm g < tolerance)), fun _ => .pure⟩

end

/-- The slope of half the square of a number. -/
def slope : VectorField Float Unit := fun x => return .vector x

end Descent
