import Descent.Proofs.Minimize.Heads
import Descent.Proofs.Minimize.Outer
import Descent.Proofs.Minimize.Quadratic
import Descent.Proofs.Ray.Postcondition

/-!
# The steps of the minimizations

Both minimizations leave a point by a search along a direction, so what is known of a search is
known of every accepted step: the direction descends, and the slope at the end is small or not
positive.

* `Ray.Leads`: a search has led from one point to another;
* `Conjugate.Task.Accepts.leads`, `Newton.Task.Accepts.leads`: every accepted step of a
  minimization; `Task.Accepts.leads_of_read`: of what callers give;
* `Ray.Leads.stepped`, `Ray.Leads.falls`: what this says of the gradient at both ends;
* `search_postcondition`: what a search returns, and what follows for the steps.
-/

namespace Descent

namespace Ray

/-- A search from `x`, where the gradient is `g`, has led to `y`; it was asked for a slope of
`threshold` times the one at the start. -/
def Leads {α σ : Type} {n : Nat} [Scalar α] (gradient : Vec α n → Run α σ (Vec α n)) (threshold : α)
    (x g y : Vec α n) : Prop :=
  ∃ d rule samples length, rule.threshold = threshold ∧
    Advances gradient rule x g d samples length ∧ y = Vec.along x length d

/-- A step from `x` along a direction of descent to `y`, where the slope is small or not positive.
-/
def Stepped {α σ : Type} {n : Nat} [Scalar α] (gradient : Vec α n → Run α σ (Vec α n))
    (threshold : α) (x y : Vec α n) : Prop :=
  ∃ g d length g', (gradient x).Gives g ∧ Vec.dot g d < 0 ∧ y = Vec.along x length d ∧
    (gradient y).Gives g' ∧
      (Scalar.abs (Vec.dot g' d) ≤ threshold * Scalar.abs (Vec.dot g d) ∨ ¬0 < Vec.dot g' d)

/-- A step forward along a direction in which the slope is negative and falls, relative to its size,
to `threshold`. -/
def Falls {n : Nat} (df : Vec ℝ n → Vec ℝ n) (threshold : ℝ) (x y : Vec ℝ n) : Prop :=
  ∃ d length, 0 < length ∧ y = Vec.along x length d ∧ Vec.dot (df x) d < 0 ∧
    Vec.dot (df y) d ≤ threshold * |Vec.dot (df x) d|

theorem Leads.stepped {α σ : Type} {n : Nat} [Scalar α]
    {gradient : Vec α n → Run α σ (Vec α n)} {threshold : α} {x g y : Vec α n}
    (h : Leads gradient threshold x g y) (hg : (gradient x).Gives g) :
    Stepped gradient threshold x y := by
  obtain ⟨d, rule, samples, length, rfl, hadvances, rfl⟩ := h
  obtain ⟨g', hg', hslope⟩ := hadvances.slope
  exact ⟨g, d, length, g', hg, hadvances.descends, rfl, hg', hslope⟩

theorem Leads.falls {σ : Type} {n : Nat} {gradient : Vec ℝ n → Run ℝ σ (Vec ℝ n)}
    {df : Vec ℝ n → Vec ℝ n} (hdf : ∀ x, (gradient x).Returns (df x)) {threshold : ℝ}
    {x g y : Vec ℝ n} (h : Leads gradient threshold x g y) (hg : (gradient x).Gives g) :
    Falls df threshold x y := by
  obtain ⟨d, rule, samples, length, rfl, hadvances, rfl⟩ := h
  obtain ⟨hpos, g', hg', hle⟩ := hadvances.slope_le
  cases (hdf _).eq_of_gives hg
  cases (hdf _).eq_of_gives hg'
  exact ⟨d, length, hpos, rfl, hadvances.descends, hle⟩

end Ray

/-! ## Conjugate gradients -/

namespace Conjugate

section

variable {α σ : Type} {n : Nat} [Numeral α]

theorem threshold_of_searching {rule : Rule α} {start : α} {manner : Ray.Rule α}
    (h : rule.searching start = .ok manner) : rule.threshold.toScalar = .ok manner.threshold := by
  obtain ⟨_, -, h⟩ := Fault.bind_eq_ok h
  obtain ⟨threshold, hthreshold, h⟩ := Fault.bind_eq_ok h
  cases h
  exact hthreshold

/-- A search that is not stuck leads to another point. -/
theorem seek_leads (problem : Problem α σ n) (rule : Rule α) (s : State α n) (slope : α) :
    (seek problem rule s slope).Keeps Invariant.none fun found => s.stuck found.length = false →
      ∃ threshold, rule.threshold.toScalar = .ok threshold ∧
        Ray.Leads problem.gradient threshold s.point s.gradient
          (Vec.along s.point found.length s.direction) := by
  refine .check fun manner hmanner => ?_
  refine (Ray.search_advances _ _ _ _ _ _).mono fun found hfound hmoves => ?_
  obtain ⟨samples, hadvances⟩ := hfound (Bool.or_eq_false_iff.1 hmoves).1
  exact ⟨manner.threshold, threshold_of_searching hmanner, s.direction, manner, samples,
    found.length, rfl, hadvances, rfl⟩

/-- The point after an accepted step is the one that the search has found. -/
theorem Settles.point_eq {problem : Problem α σ n} {rule : Rule α} {s t : State α n} {slope : α}
    {found : Ray.Found α} (h : Settles problem rule s slope found (.accepted t)) :
    s.stuck found.length = false ∧ t.point = Vec.along s.point found.length s.direction := by
  cases h with
  | accepted hmoves => exact ⟨hmoves, rfl⟩

/-- An iteration with an accepted step leads from its head to the next one. -/
theorem turn_leads (problem : Problem α σ n) (rule : Rule α) (limit : Nat) (s : State α n) :
    (turn problem rule limit s).Keeps Invariant.none fun r => ∀ search t, r = .again search t →
      search.moved = true → ∃ threshold, rule.threshold.toScalar = .ok threshold ∧
        Ray.Leads problem.gradient threshold s.point s.gradient t.point := by
  refine .bind (Run.keeps_none _) fun holds _ => ?_
  refine .ite (fun _ => .pure fun _ _ h => absurd h Run.Round.done_ne_again) fun _ => ?_
  refine .ite (fun _ => .pure fun _ _ h => absurd h Run.Round.done_ne_again) fun _ => ?_
  cases haim : aim s with
  | none => exact .pure fun _ _ h => absurd h Run.Round.done_ne_again
  | some p =>
    obtain ⟨u, slope⟩ := p
    refine .bind (seek_leads problem rule u slope) fun found hfound => ?_
    refine .bind (settle_keeps problem rule u slope found) fun leg hleg => .pure ?_
    intro search t hagain hmoved
    cases leg with
    | retry | ended => cases hagain <;> cases hmoved
    | accepted v =>
      cases hagain
      obtain ⟨hmoves, hpoint⟩ := hleg.point_eq
      rw [hpoint]
      -- aiming changes the direction only
      obtain rfl | rfl := aimed_eq haim <;> exact hfound hmoves

end

variable {α σ : Type} [Numeral α] {task : Task α σ} {session : Session α σ}
  {s t : State α task.unknowns}

/-- From a session on, a minimization takes a step from one head of its iterations to the next. -/
def Task.Accepts (task : Task α σ) (session : Session α σ) (s t : State α task.unknowns) : Prop :=
  ∃ searches search session₁ session₂, task.Reaches session searches s session₁ ∧
    (turn task.problem task.rule task.budget s).run session₁ = .ok (.again search t) session₂ ∧
      search.moved = true

/-- **Every accepted step** comes from a search that led there. -/
theorem Task.Accepts.leads (h : task.Accepts session s t) :
    (task.problem.gradient s.point).Gives s.gradient ∧
      ∃ threshold, task.rule.threshold.toScalar = .ok threshold ∧
        Ray.Leads task.problem.gradient threshold s.point s.gradient t.point := by
  obtain ⟨searches, search, session₁, session₂, hreaches, hturn, hmoved⟩ := h
  refine ⟨hreaches.reached.sound.gradient, ?_⟩
  exact ((turn_leads _ _ _ s).of_ok trivial hturn).2 search t rfl hmoved

/-- The threshold of the searches is the one that callers have set. -/
theorem Task.threshold_of_read {gradient : VectorField α σ} {start : Datum α}
    {options : Options α σ} {outside : Region α σ} {preconditioner : Option (Tensor α σ)}
    (hread : Task.read gradient start options outside preconditioner = .ok task) :
    task.problem.gradient = gradient.valueAt "gradient" ∧
      options.lineSearchThreshold.toNumber = .ok task.rule.threshold := by
  obtain ⟨settings, hsettings, -, hproblem, hrule, -⟩ := Minimize.Task.setUp_eq_ok hread
  rw [hproblem, hrule]
  exact ⟨rfl, Datum.toNumber_of_insist (Options.settings_eq_ok hsettings).lineSearchThreshold⟩

/-- The accepted steps of what callers give, with the threshold that they have set. -/
theorem Task.Accepts.leads_of_read {gradient : VectorField α σ} {start : Datum α}
    {options : Options α σ} {outside : Region α σ} {preconditioner : Option (Tensor α σ)}
    (h : task.Accepts session s t)
    (hread : Task.read gradient start options outside preconditioner = .ok task) :
    (gradient.valueAt "gradient" s.point).Gives s.gradient ∧
      ∃ threshold, (options.lineSearchThreshold.toNumber >>= Number.toScalar) = .ok threshold ∧
        Ray.Leads (gradient.valueAt "gradient") threshold s.point s.gradient t.point := by
  obtain ⟨hproblem, hset⟩ := Task.threshold_of_read hread
  obtain ⟨hgradient, threshold, hthreshold, hleads⟩ := h.leads
  rw [hproblem] at hgradient hleads
  exact ⟨hgradient, threshold, by rw [hset]; exact hthreshold, hleads⟩

end Conjugate

/-! ## Truncated Newton steps -/

namespace Newton

section

variable {α σ : Type} {n : Nat} [Numeral α]

/-- A search that has moved leads to another point. -/
theorem attempt_leads (problem : Problem α σ n) (rule : Rule α) (s : State α n)
    (step : Vec α n) :
    (attempt problem rule s step).Keeps Invariant.none fun trial => trial.moved = true →
      Ray.Leads problem.gradient rule.threshold s.point s.gradient trial.point := by
  refine .bind (Ray.search_advances _ _ _ _ _ _) fun found hfound => .pure fun hmoved => ?_
  have hmoves : (found.length == 0) = false := by
    simp only [Bool.not_eq_true', Bool.or_eq_false_iff] at hmoved
    exact hmoved.1
  obtain ⟨samples, hadvances⟩ := hfound hmoves
  exact ⟨step, _, samples, found.length, rfl, hadvances, rfl⟩

/-- The last search of an outer iteration leads to another point if it has moved. -/
theorem seek_leads (problem : Problem α σ n) (rule : Rule α) (smoother : Option (LinearMap α σ n))
    (s : State α n) (direction : Direction α n) :
    (seek problem rule smoother s direction).Keeps Invariant.none fun tries =>
      tries.last.moved = true →
        Ray.Leads problem.gradient rule.threshold s.point s.gradient tries.last.point := by
  refine .bind (attempt_leads problem rule s _) fun first hfirst => ?_
  refine .ite (fun _ => .pure hfirst) fun _ => .ite (fun _ => ?_) fun _ => .pure hfirst
  refine .bind .debug fun _ _ => .bind (Run.keeps_none _) fun step _ => ?_
  exact .bind (attempt_leads problem rule s step) fun second hsecond => .pure hsecond

omit [Numeral α] in
/-- The state after an accepted step has the point of the last search and the gradient there. -/
theorem conclude_point (problem : Problem α σ n) (s : State α n) (tries : Tries α n) :
    (conclude problem s tries).Keeps Invariant.none fun leg => ∀ t, leg = .accepted t →
      tries.last.moved = true ∧ t.point = tries.last.point ∧
        (problem.gradient t.point).Gives t.gradient := by
  refine .ite (fun hmoved => ?_) fun _ => .pure nofun
  refine .bind (Run.keeps_gives _) fun gradient hgradient => .pure fun t ht => ?_
  cases ht
  exact ⟨hmoved, rfl, hgradient⟩

/-- An outer iteration that the loop goes on from leads to the next head, with the gradient there.
-/
theorem turn_leads (problem : Problem α σ n) (rule : Rule α) (limit : Nat) (s : State α n) :
    (turn problem rule limit s).Keeps Invariant.none fun r => ∀ outer t, r = .again outer t →
      Ray.Leads problem.gradient rule.threshold s.point s.gradient t.point ∧
        (problem.gradient t.point).Gives t.gradient := by
  refine .bind (Run.keeps_none _) fun holds _ => ?_
  refine .ite (fun _ => .pure fun _ _ h => absurd h Run.Round.done_ne_again) fun _ => ?_
  refine .ite (fun _ => .pure fun _ _ h => absurd h Run.Round.done_ne_again) fun _ => ?_
  refine .bind (R := fun outer : Outer α n => ∀ t, outer.leg = .accepted t →
    Ray.Leads problem.gradient rule.threshold s.point s.gradient t.point ∧
      (problem.gradient t.point).Gives t.gradient) ?_ fun outer houter => .pure ?_
  · refine .bind (Run.keeps_none _) fun smoother _ => .bind (Run.keeps_none _) fun report _ => ?_
    refine .bind (Run.keeps_none _) fun direction _ => ?_
    refine .bind (seek_leads _ _ _ _ _) fun tries htries => ?_
    refine .bind (conclude_point _ _ _) fun leg hleg => .pure fun t ht => ?_
    obtain ⟨hmoved, hpoint, hgradient⟩ := hleg t ht
    exact ⟨hpoint ▸ htries hmoved, hgradient⟩
  · intro event t hagain
    obtain ⟨inner, tries, leg⟩ := outer
    cases leg with
    | ended => cases hagain
    | accepted =>
      cases hagain
      exact houter _ rfl

end

variable {α σ : Type} [Numeral α] {task : Task α σ} {session session' : Session α σ}
  {s t : State α task.unknowns}

/-- Wherever a minimization has come to, it knows the gradient. -/
theorem Task.Reaches.gradient {outers : List (Outer α task.unknowns)}
    (h : task.Reaches session outers s session') :
    (task.problem.gradient s.point).Gives s.gradient := by
  obtain ⟨gradient, session₁, hgradient, hpath⟩ := h
  refine hpath.invariant (P := fun _ s => (task.problem.gradient s.point).Gives s.gradient)
    ⟨session, session₁, hgradient⟩ fun outers s _ => ?_
  exact (turn_leads _ _ _ s).mono fun r hr outer t hagain => (hr outer t hagain).2

/-- From a session on, a minimization takes a step from one head of its iterations to the next. -/
def Task.Accepts (task : Task α σ) (session : Session α σ) (s t : State α task.unknowns) : Prop :=
  ∃ outers outer session₁ session₂, task.Reaches session outers s session₁ ∧
    (turn task.problem task.rule task.budget s).run session₁ = .ok (.again outer t) session₂

/-- **Every accepted step** comes from a search that led there. -/
theorem Task.Accepts.leads (h : task.Accepts session s t) :
    (task.problem.gradient s.point).Gives s.gradient ∧
      Ray.Leads task.problem.gradient task.rule.threshold s.point s.gradient t.point := by
  obtain ⟨outers, outer, session₁, session₂, hreaches, hturn⟩ := h
  exact ⟨hreaches.gradient, (((turn_leads _ _ _ s).of_ok trivial hturn).2 outer t rfl).1⟩

/-- The threshold of the searches is the one that callers have set. -/
theorem Task.threshold_of_read {gradient : VectorField α σ} {hessian : Tensor α σ}
    {start : Datum α} {outside : Region α σ} {options : Options α σ}
    {preconditioner : Option (Tensor α σ)}
    (hread : Task.read gradient hessian start outside options preconditioner = .ok task) :
    task.problem.gradient = gradient.valueAt "gradient" ∧
      options.lineSearchThreshold.insistInUnit "line_search_threshold" =
        .ok task.rule.threshold := by
  obtain ⟨settings, hsettings, -, hproblem, hrule, -⟩ := Minimize.Task.setUp_eq_ok hread
  rw [hproblem, hrule]
  exact ⟨rfl, (Options.settings_eq_ok hsettings).lineSearchThreshold⟩

/-- The accepted steps of what callers give, with the threshold that they have set. -/
theorem Task.Accepts.leads_of_read {gradient : VectorField α σ} {hessian : Tensor α σ}
    {start : Datum α} {outside : Region α σ} {options : Options α σ}
    {preconditioner : Option (Tensor α σ)} (h : task.Accepts session s t)
    (hread : Task.read gradient hessian start outside options preconditioner = .ok task) :
    (gradient.valueAt "gradient" s.point).Gives s.gradient ∧
      ∃ threshold,
        options.lineSearchThreshold.insistInUnit "line_search_threshold" = .ok threshold ∧
          Ray.Leads (gradient.valueAt "gradient") threshold s.point s.gradient t.point := by
  obtain ⟨hproblem, hset⟩ := Task.threshold_of_read hread
  obtain ⟨hgradient, hleads⟩ := h.leads
  rw [hproblem] at hgradient hleads
  exact ⟨hgradient, task.rule.threshold, hset, hleads⟩

end Newton

/-! ## Searches and steps -/

/-- **What a search returns.** The gradients are counted right, and there are at most two for every
round and one for the start; the length is zero where the function does not descend, and otherwise
it is zero or one that was found inside, where the slope is finite and is small or not positive.
Over the reals it is not negative, and unless its slope is small it is the furthest length at which
the function was seen to descend. So every accepted step of both minimizations leads along a
direction of descent to a point where the slope is small or not positive. -/
theorem search_postcondition :
    (∀ {α σ : Type} [Numeral α] {I : List (Ray.Answer α) → Invariant α σ}
      {gradient : VectorField α σ} {outside : Region α σ}, Ray.Answering I gradient outside →
      ∀ (x d : Array α) (options : Ray.Options α) (known : Option (Array α)),
        Run.Triple (·.Has (I [])) (Ray.searchArrays gradient x d options outside known)
          (fun found s => ∃ answers slope samples, s.Has (I answers) ∧
            Ray.Searches x d options known answers slope samples found ∧
            Ray.Acceptable (options.threshold * Scalar.abs slope) samples found.length)
          fun _ _ => True) ∧
      -- over the reals
      (∀ {σ : Type} [RealText] {I : List (Ray.Answer ℝ) → Invariant ℝ σ}
        {gradient : VectorField ℝ σ} {outside : Region ℝ σ}, Ray.Answering I gradient outside →
        ∀ (x d : Array ℝ) (options : Ray.Options ℝ) (known : Option (Array ℝ)),
          Run.Triple (·.Has (I [])) (Ray.searchArrays gradient x d options outside known)
            (fun found s => ∃ answers slope samples, s.Has (I answers) ∧
              Ray.Searches x d options known answers slope samples found ∧ 0 ≤ found.length ∧
              ((∀ a, ⟨found.length, a⟩ ∈ samples → ¬|a| ≤ options.threshold * |slope|) →
                IsGreatest (Ray.descents samples) found.length))
            fun _ _ => True) ∧
      -- the accepted steps of both minimizations
      (∀ {α σ : Type} [Numeral α] {gradient : VectorField α σ} {start : Datum α}
        {options : Conjugate.Options α σ} {outside : Region α σ}
        {preconditioner : Option (Tensor α σ)} {task : Conjugate.Task α σ},
        Conjugate.Task.read gradient start options outside preconditioner = .ok task →
        ∀ session s t, task.Accepts session s t → ∃ threshold,
          (options.lineSearchThreshold.toNumber >>= Number.toScalar) = .ok threshold ∧
            Ray.Stepped (gradient.valueAt "gradient") threshold s.point t.point) ∧
      (∀ {α σ : Type} [Numeral α] {gradient : VectorField α σ} {hessian : Tensor α σ}
        {start : Datum α} {outside : Region α σ} {options : Newton.Options α σ}
        {preconditioner : Option (Tensor α σ)} {task : Newton.Task α σ},
        Newton.Task.read gradient hessian start outside options preconditioner = .ok task →
        ∀ session s t, task.Accepts session s t → ∃ threshold,
          options.lineSearchThreshold.insistInUnit "line_search_threshold" = .ok threshold ∧
            Ray.Stepped (gradient.valueAt "gradient") threshold s.point t.point) ∧
      -- over the reals, with a gradient that is a function of the point
      (∀ {σ : Type} [RealText] {gradient : VectorField ℝ σ} {start : Datum ℝ}
        {options : Conjugate.Options ℝ σ} {outside : Region ℝ σ}
        {preconditioner : Option (Tensor ℝ σ)} {task : Conjugate.Task ℝ σ},
        Conjugate.Task.read gradient start options outside preconditioner = .ok task →
        ∀ df : Vec ℝ task.unknowns → Vec ℝ task.unknowns,
        (∀ x, (gradient.valueAt "gradient" x).Returns (df x)) →
        ∀ session s t, task.Accepts session s t → ∃ threshold,
          (options.lineSearchThreshold.toNumber >>= Number.toScalar) = .ok threshold ∧
            Ray.Falls df threshold s.point t.point) ∧
      (∀ {σ : Type} [RealText] {gradient : VectorField ℝ σ} {hessian : Tensor ℝ σ}
        {start : Datum ℝ} {outside : Region ℝ σ} {options : Newton.Options ℝ σ}
        {preconditioner : Option (Tensor ℝ σ)} {task : Newton.Task ℝ σ},
        Newton.Task.read gradient hessian start outside options preconditioner = .ok task →
        ∀ df : Vec ℝ task.unknowns → Vec ℝ task.unknowns,
        (∀ x, (gradient.valueAt "gradient" x).Returns (df x)) →
        ∀ session s t, task.Accepts session s t → ∃ threshold,
          options.lineSearchThreshold.insistInUnit "line_search_threshold" = .ok threshold ∧
            Ray.Falls df threshold s.point t.point) := by
  refine ⟨?_, ?_, ?_, ?_, ?_, ?_⟩
  · intro α σ _ I gradient outside h x d options known
    refine (Ray.searchArrays_answers h x d options known).conseq (fun _ hs => hs) ?_
      fun _ _ he => he
    rintro found s ⟨answers, slope, samples, hs, hsearches⟩
    exact ⟨answers, slope, samples, hs, hsearches, hsearches.acceptable⟩
  · intro σ _ I gradient outside h x d options known
    refine (Ray.searchArrays_answers h x d options known).conseq (fun _ hs => hs) ?_
      fun _ _ he => he
    rintro found s ⟨answers, slope, samples, hs, hsearches⟩
    exact ⟨answers, slope, samples, hs, hsearches, hsearches.furthest⟩
  · intro α σ _ gradient start options outside preconditioner task hread session s t h
    obtain ⟨hgradient, threshold, hset, hleads⟩ := h.leads_of_read hread
    exact ⟨threshold, hset, hleads.stepped hgradient⟩
  · intro α σ _ gradient hessian start outside options preconditioner task hread session s t h
    obtain ⟨hgradient, threshold, hset, hleads⟩ := h.leads_of_read hread
    exact ⟨threshold, hset, hleads.stepped hgradient⟩
  · intro σ _ gradient start options outside preconditioner task hread df hdf session s t h
    obtain ⟨hgradient, threshold, hset, hleads⟩ := h.leads_of_read hread
    exact ⟨threshold, hset, hleads.falls hdf hgradient⟩
  · intro σ _ gradient hessian start outside options preconditioner task hread df hdf session s t h
    obtain ⟨hgradient, threshold, hset, hleads⟩ := h.leads_of_read hread
    exact ⟨threshold, hset, hleads.falls hdf hgradient⟩

/-! ## A parabola -/

/-- The gradient of `x²/2`, with its answers written down. -/
def Ray.parabola : VectorField Float (List (Ray.Answer Float)) := fun x => do
  modify fun s => { s with caller := s.caller ++ [.gradient x (.vector x)] }
  return .vector x

/-- A domain without an end, with its answers written down. -/
def Ray.unbounded : Region Float (List (Ray.Answer Float)) := fun x => do
  modify fun s => { s with caller := s.caller ++ [.outside x false] }
  return false

theorem Ray.parabola_answering :
    Ray.Answering (fun answers _ log => log = answers) Ray.parabola Ray.unbounded where
  gradient point answers s hs := by
    have hs : s.caller = answers := hs
    exact congrArg (· ++ [.gradient point (.vector point)]) hs
  outside point answers s hs := by
    have hs : s.caller = answers := hs
    exact congrArg (· ++ [.outside point false]) hs

/-- The gradient of `|x|²/2`. -/
def halfSquareField : VectorField ℝ Unit := fun x => return .vector x

section

variable [RealText]

theorem halfSquareField_yields {n : Nat} (x : Vec ℝ n) :
    (halfSquareField.valueAt "gradient" x).Yields Invariant.none x :=
  .bind .pure (.ofExcept (Datum.toVec_vector _ x))

/-- The minimization of `x²/2`. -/
noncomputable def Conjugate.parabola : Conjugate.Problem ℝ Unit 1 where
  gradient := halfSquareField.valueAt "gradient"
  precondition := smooth none
  outside x := Region.everywhere x.toArray
  stop g count := (Criterion.iterations 5).holds g (.whole count)

/-- The head of the first iteration. -/
noncomputable def Conjugate.parabolaStart : Conjugate.State ℝ 1 where
  point := #v[1]
  gradient := #v[1]
  smoothed := #v[1]
  product := Vec.dot #v[1] #v[1]
  direction := -#v[1]
  sinceRestart := 0
  previous := none
  iterations := 0
  evaluations := 1

/-- The first search tries the full step and finds it. -/
theorem Conjugate.seek_parabola :
    (seek parabola ⟨.whole 1, 1⟩ parabolaStart (-1)).Yields Invariant.none
      ⟨1, 1⟩ := by
  have hnorm : Vec.norm parabolaStart.direction ≤ 1 := by
    simp [parabolaStart, Vec.norm, Vec.dot_eq_sum, Scalar.sqrt]
  have hstart : startLength parabolaStart.previous (-1) parabolaStart.direction = 1 := by
    simp only [startLength, parabolaStart]
    exact if_pos hnorm
  have hmanner : (⟨.whole 1, 1⟩ : Rule ℝ).searching 1 = .ok ⟨1, 1, shrink, rounds⟩ := by
    simp [Rule.searching, demand, Number.toScalar, Numeral.ofInt?]
    rfl
  have hslope : Vec.dot parabolaStart.gradient parabolaStart.direction = -1 := by
    simp [parabolaStart, Vec.dot_eq_sum]
  rw [seek, hstart, hslope]
  refine .bind (.ofExcept hmanner) ?_
  refine Ray.search_yields_start ?_ (Nat.succ_pos _) (by norm_num) .pure
    (.bind (halfSquareField_yields _) .pure) rfl ?_
  · simp [Ray.Rule.check, demand, shrink]
    norm_num
    rfl
  · simp [Vec.along_eq, parabolaStart, Vec.dot_eq_sum, Scalar.abs]

theorem Conjugate.accepts_parabola :
    ∃ t, Task.Accepts (⟨1, parabola, ⟨.whole 1, 1⟩, 1000, #v[1]⟩ : Task ℝ Unit) (.initial ())
      parabolaStart t := by
  have hopening : (opening parabola #v[1]).Yields Invariant.none
      parabolaStart :=
    .bind (halfSquareField_yields _) (.bind .pure .pure)
  have haim : aim parabolaStart = some (parabolaStart, -1) := by
    have hslope : Vec.dot parabolaStart.gradient parabolaStart.direction = -1 := by
      simp [parabolaStart, Vec.dot_eq_sum]
    rw [aim, hslope]
    simp
  have hmoves : (parabolaStart.counted 1).stuck 1 = false := by
    have hne : (0 : Vec ℝ 1) ≠ #v[1] := fun h => by simpa using congrArg (·[0]) h
    simp [State.stuck, State.counted, parabolaStart, Vec.along_eq, hne]
  have hsettle : (settle parabola ⟨.whole 1, 1⟩ parabolaStart (-1) ⟨1, 1⟩).Ensures
      Invariant.none fun leg => ∃ t, leg = .accepted t := by
    rw [settle, hmoves, if_neg Bool.false_ne_true]
    refine .bind (.of_yields (halfSquareField_yields _) rfl) fun g _ => ?_
    exact .bind (R := fun _ => True) (.pure trivial) fun z _ => .pure ⟨_, rfl⟩
  have hturn : (turn parabola ⟨.whole 1, 1⟩ 1000
      parabolaStart).Ensures Invariant.none fun r => ∃ search t, r = .again search t ∧
        search.moved = true := by
    refine .bind (R := (· = false)) (.pure rfl) fun holds hholds => ?_
    rw [hholds, if_neg Bool.false_ne_true, if_neg (by simp [parabolaStart]), haim]
    refine .bind (.of_yields seek_parabola rfl) fun found hfound => ?_
    subst hfound
    refine hsettle.bind fun leg hleg => .pure ?_
    obtain ⟨t, rfl⟩ := hleg
    exact ⟨_, t, rfl, rfl⟩
  obtain ⟨session₁, hrun, -⟩ := hopening.exists_run (s := .initial ()) trivial
  obtain ⟨_, session₂, hrun', -, search, t, rfl, hmoved⟩ :=
    Run.Ensures.exists_run hturn (s := session₁) trivial
  exact ⟨t, [], search, session₁, session₂, ⟨_, _, hrun, .start⟩, hrun', hmoved⟩

/-- On a convex quadratic an outer iteration leads to the next one. -/
theorem Newton.turn_ensures {σ : Type} {n : Nat} {I : Invariant ℝ σ} {T : Vec ℝ n →ₗ[ℝ] Vec ℝ n}
    {b : Vec ℝ n} {M : Vec ℝ n → Vec ℝ n →ₗ[ℝ] Vec ℝ n} {problem : Newton.Problem ℝ σ n}
    {rule : Newton.Rule ℝ} {s : Newton.State ℝ n} {limit : Nat} (h : problem.Quadratic I T b M)
    (hrule : rule.Valid n) (hs : s.gradient = T s.point - b) (hne : s.gradient ≠ 0)
    (hstop : (problem.stop s.gradient s.iterations).Yields I false) (hleft : s.iterations < limit) :
    (turn problem rule limit s).Ensures I fun r => ∃ outer t, r = .again outer t := by
  have hsurvey : (survey problem rule s).Ensures I fun outer => ∃ t, outer.leg = .accepted t := by
    have hleg := leg_ensures h hrule hs hne
    rw [leg_eq_survey] at hleg
    refine Run.Ensures.mono (Run.Triple.of_map hleg) fun outer houter => ?_
    obtain ⟨step, -, haccepted⟩ := houter
    exact ⟨_, haccepted⟩
  refine .bind (R := (· = false)) (.of_yields hstop rfl) fun holds hholds => ?_
  rw [hholds, if_neg Bool.false_ne_true, if_neg hleft.not_ge]
  refine hsurvey.bind fun outer houter => .pure ?_
  obtain ⟨inner, tries, leg⟩ := outer
  obtain ⟨t, rfl⟩ := houter
  exact ⟨_, t, rfl⟩

open LinearSystem in
/-- The first outer iteration takes the Newton step. -/
theorem Newton.accepts_parabola :
    ∃ (task : Newton.Task ℝ Unit) (s t : Newton.State ℝ task.unknowns),
      Newton.Task.read halfSquareField (.constant (.operator .identity)) (.vector #[1])
        Region.everywhere { stop := .criterion (.iterations 5) } none = .ok task ∧
          task.Accepts (.initial ()) s t := by
  have hsettings := Newton.settings_default (σ := Unit) (.iterations 5)
  have hread := Newton.Task.read_of_settings hsettings halfSquareField
    (.constant (.operator .identity)) Region.everywhere none #[1]
  have hproblem := Newton.Task.quadratic_of_read (T := 1) (b := 0) (M := fun _ => 1) hread
    positiveDefinite_one (fun _ => positiveDefinite_one) (I := Invariant.none)
    (fun x => by rw [sub_zero]; exact halfSquareField_yields x)
    (Tensor.actsAs_constant (actsAs_identity _)) (fun _ _ => rfl) fun _ => .pure
  have hrule := Newton.Options.rule_valid (n := 1) hsettings fun _ hcap => by cases hcap
  have hne : (#v[1] : Vec ℝ 1) ≠ 0 := fun h => by simpa using congrArg (·[0]) h
  let s : Newton.State ℝ 1 := ⟨#v[1], #v[1], 0, 1⟩
  have hleft : s.iterations < 200 := Nat.succ_pos _
  have hturn := Newton.turn_ensures hproblem hrule (sub_zero _).symm hne .pure hleft
  obtain ⟨session₁, hrun, -⟩ :=
    (halfSquareField_yields (#v[1] : Vec ℝ 1)).exists_run (s := .initial ()) trivial
  obtain ⟨_, session₂, hrun', -, outer, t, rfl⟩ :=
    Run.Ensures.exists_run hturn (s := session₁) trivial
  refine ⟨_, s, t, hread, [], outer, session₁, session₂, ⟨_, _, hrun, .start⟩, ?_⟩
  exact hrun'

/-- The search down a parabola, whose first trial is the minimum. -/
theorem Ray.searchArrays_halfSquareField :
    (searchArrays halfSquareField #[1] #[-1] {} Region.everywhere (some #[1])).Yields Invariant.none
      ⟨1, 1⟩ := by
  have hproduct : product (#[1] : Array ℝ) #[-1] = .ok (-1) := by
    simp [product, Vec.dot_eq_sum, Vec.ofArray]
  have hslope : ((stretched halfSquareField Region.everywhere #[1] #[-1]).slope 1).Yields
      Invariant.none 0 := by
    refine .bind (b := #[0]) (.ofExcept ?_) (.bind (halfSquareField_yields _) (.ofExcept ?_))
    · simp [pointAt, commonLength, stretch]
    · simp [product, Vec.dot_eq_sum, Vec.ofArray]
  have hcheck : (({} : Options ℝ).rule 0).check = .ok () := by
    simp [Rule.check, Options.rule, demand]
    norm_num
    rfl
  refine .bind (b := ()) (.ofExcept hcheck) (.bind (b := -1) (.ofExcept hproduct) ?_)
  refine .bind (b := (-1, 0)) .pure ?_
  dsimp only
  rw [if_neg (by norm_num)]
  refine .bind (b := 60) (.ofExcept rfl) (descend_yields_start (Nat.succ_pos _) (by norm_num) ?_
    hslope rfl ?_ 0)
  · refine .bind (b := #[0]) (.ofExcept ?_) .pure
    simp [pointAt, commonLength, stretch, Options.rule]
  · simp [Options.rule, Scalar.abs]
    norm_num

end

/-- From one down the parabola `x²/2`. The gradient is evaluated twice, as often as it was asked
for; the search along reals finds a length that is not negative; both minimizations take a first
step, along a direction in which the slope falls. -/
theorem search_postcondition_parabola :
    letI := RealText.mute
    (∃ found s, (Ray.searchArrays Ray.parabola #[1] #[-1] {} Ray.unbounded none).run
        (.initial []) = .ok found s ∧ found.evaluations = 2 ∧
          s.caller.countP Ray.Answer.isGradient = 2) ∧
      (∃ found s, (Ray.searchArrays halfSquareField #[1] #[-1] {} Region.everywhere
        (some #[1])).run (.initial ()) = .ok found s ∧ 0 ≤ found.length) ∧
      (∃ (task : Conjugate.Task ℝ Unit) (s t : Conjugate.State ℝ task.unknowns) (threshold : ℝ),
        task.Accepts (.initial ()) s t ∧
          Ray.Stepped (halfSquareField.valueAt "gradient") threshold s.point t.point ∧
          Ray.Falls id threshold s.point t.point) ∧
      ∃ (task : Newton.Task ℝ Unit) (s t : Newton.State ℝ task.unknowns) (threshold : ℝ),
        task.Accepts (.initial ()) s t ∧
          Ray.Stepped (halfSquareField.valueAt "gradient") threshold s.point t.point ∧
          Ray.Falls id threshold s.point t.point := by
  let _ := RealText.mute
  obtain ⟨hany, hreal, hconjugate, hnewton, hconjugateReal, hnewtonReal⟩ := search_postcondition
  have hid {n : Nat} (x : Vec ℝ n) : (halfSquareField.valueAt "gradient" x).Returns (id x) :=
    (halfSquareField_yields x).keeps
  refine ⟨?_, ?_, ?_, ?_⟩
  · have htwo : (match (Ray.searchArrays Ray.parabola #[1] #[-1] {} Ray.unbounded none).run
        (.initial []) with
      | .ok found _ => found.evaluations == 2
      | .error _ _ => false) = true := by decide +kernel
    cases hrun : (Ray.searchArrays Ray.parabola #[1] #[-1] {} Ray.unbounded none).run
        (.initial []) with
    | error fault s => simp [hrun] at htwo
    | ok found s =>
      rw [hrun] at htwo
      have htwo : found.evaluations = 2 := by simpa using htwo
      have hstart : (Session.initial [] : Session Float (List (Ray.Answer Float))).Has
          fun _ log => log = [] := rfl
      obtain ⟨answers, slope, samples, hlog, hsearches, -⟩ :=
        (hany Ray.parabola_answering #[1] #[-1] {} none).of_ok hstart hrun
      have hlog : s.caller = answers := hlog
      exact ⟨found, s, rfl, htwo, by rw [hlog, ← hsearches.evaluations_eq, htwo]⟩
  · obtain ⟨s, hrun, -⟩ := Ray.searchArrays_halfSquareField.exists_run (s := .initial ()) trivial
    obtain ⟨-, -, -, -, -, hnonneg, -⟩ :=
      (hreal (.unmarked halfSquareField Region.everywhere) #[1] #[-1] {} (some #[1])).of_ok
        trivial hrun
    exact ⟨_, s, hrun, hnonneg⟩
  · obtain ⟨t, haccepts⟩ := Conjugate.accepts_parabola
    have hread : Conjugate.Task.read halfSquareField (.vector #[1])
        { stop := .criterion (.iterations 5), lineSearchThreshold := .number (.whole 1),
          restartInterval := .number (.whole 1) } Region.everywhere none =
          .ok ⟨1, Conjugate.parabola, ⟨.whole 1, 1⟩, 1000, #v[1]⟩ := rfl
    obtain ⟨threshold, hset, hstepped⟩ := hconjugate hread _ _ _ haccepts
    obtain ⟨threshold', hset', hfalls⟩ := hconjugateReal hread id hid _ _ _ haccepts
    cases hset.symm.trans hset'
    exact ⟨_, _, t, threshold, haccepts, hstepped, hfalls⟩
  · obtain ⟨task, s, t, hread, haccepts⟩ := Newton.accepts_parabola
    obtain ⟨threshold, hset, hstepped⟩ := hnewton hread _ _ _ haccepts
    obtain ⟨threshold', hset', hfalls⟩ := hnewtonReal hread id hid _ _ _ haccepts
    cases hset.symm.trans hset'
    exact ⟨task, s, t, threshold, haccepts, hstepped, hfalls⟩

end Descent
