import Descent.Proofs.Exact.Operator
import Descent.Proofs.Minimize.Callers
import Descent.Proofs.Minimize.Course
import Descent.Proofs.Minimize.Frame
import Descent.Proofs.Minimize.Quadratic

/-!
# Minimizers in other coordinates

What callers give can be moved to a frame: a function is asked about a point of the frame what it
knows of the point outside, and its vectors are turned. A minimizer that is given a problem moved to
a frame returns the point it would have returned outside, moved to the frame, and has done the same
number of iterations, searches and evaluations of the gradient.

* `Frame.scalar`, `Frame.region`, `Frame.field`, `Frame.operator`, `Frame.tensor`: what callers
  give, in a frame;
* `Criterion.Metric`: the criteria that see the norm of the gradient and the number of iterations
  only;
* `Tally`, `Conjugate.tallied`, `Newton.tallied`: minimizations with the counts of what they do;
* `minimizers_in_frame`: both minimizers.
-/

namespace Descent

variable {σ : Type} {n : Nat}

namespace Frame

variable (F : Frame n)

/-! ## What callers give -/

/-- The entries of a point, in the frame; entries that make no point of it stay what they are. -/
noncomputable def placeArray (x : Array ℝ) : Array ℝ :=
  if h : x.size = n then (F.place ⟨x, h⟩).toArray else x

theorem placeArray_toArray (x : Vec ℝ n) : F.placeArray x.toArray = (F.place x).toArray := by
  obtain ⟨x, rfl⟩ := x
  exact dif_pos rfl

/-- Asks about a point of the frame what is known of the point outside. -/
noncomputable def locating {β : Type} (ask : Vec ℝ n → Run ℝ σ β) (y : Array ℝ) : Run ℝ σ β :=
  if h : y.size = n then ask (F.locate ⟨y, h⟩) else throw .unequal

theorem locating_place {β : Type} (ask : Vec ℝ n → Run ℝ σ β) (x : Vec ℝ n) :
    F.locating ask (F.place x).toArray = ask x := by
  have hsize : (F.place x).toArray.size = n := (F.place x).size_toArray
  rw [locating, dif_pos hsize]
  exact congrArg ask (F.locate_place x)

/-- A function of the point, in the frame. -/
noncomputable def scalar (f : ScalarField ℝ σ) : ScalarField ℝ σ :=
  F.locating fun x => f x.toArray

/-- A predicate on points, in the frame. -/
noncomputable def region (outside : Region ℝ σ) : Region ℝ σ :=
  F.locating fun x => outside x.toArray

variable [RealText]

/-- A gradient in the frame. -/
noncomputable def field (gradient : VectorField ℝ σ) : VectorField ℝ σ :=
  F.locating fun x => do return .vector (F.turn (← gradient.valueAt "gradient" x)).toArray

theorem valueAt_field (gradient : VectorField ℝ σ) (x : Vec ℝ n) :
    Run.Sends F.turn (gradient.valueAt "gradient" x)
      ((F.field gradient).valueAt "gradient" (F.place x)) := by
  refine VectorField.valueAt_eq ?_ "gradient"
  rw [field, locating_place, map_eq_pure_bind, bind_assoc]
  simp only [pure_bind]

/-- An operator in the frame. -/
noncomputable def operator (op : Operator ℝ σ) : Operator ℝ σ :=
  .function (fun w =>
    if h : w.size = n then do return .vector (← F.conjugate op.apply ⟨w, h⟩).toArray
    else throw .unequal) (some n)

theorem apply_operator (op : Operator ℝ σ) :
    ((F.operator op).apply : LinearMap ℝ σ n) = F.conjugate op.apply := by
  funext w
  obtain ⟨w, rfl⟩ := w
  exact Operator.apply_function (dif_pos rfl)

/-- An operator that depends on the point, in the frame. One that is the same at every point stays
such an operator. -/
noncomputable def tensor : Tensor ℝ σ → Tensor ℝ σ
  | .constant (.operator op) => .constant (.operator (F.operator op))
  | tensor => .varying (F.locating fun x => do
      return .operator (F.operator (← tensor.operatorAt x)))

theorem operatorAt_tensor (tensor : Tensor ℝ σ) (x : Vec ℝ n) :
    Run.Sends F.operator (tensor.operatorAt x) ((F.tensor tensor).operatorAt (F.place x)) := by
  have hvarying : (Tensor.varying (F.locating fun x => do
      return .operator (F.operator (← tensor.operatorAt x)))).operatorAt (F.place x) =
        F.operator <$> tensor.operatorAt x := by
    refine Tensor.operatorAt_eq ?_
    rw [locating_place, map_eq_pure_bind, bind_assoc]
    simp only [pure_bind]
  cases tensor with
  | varying field => exact hvarying
  | constant op =>
    cases op with
    | operator op => exact .pure rfl
    | block | scalar | map | datum => exact hvarying

theorem smooth_tensor (preconditioner : Option (Tensor ℝ σ)) (x g : Vec ℝ n) :
    Run.Sends F.turn (Conjugate.smooth preconditioner x g)
      (Conjugate.smooth (preconditioner.map F.tensor) (F.place x) (F.turn g)) := by
  cases preconditioner with
  | none => exact .pure rfl
  | some tensor =>
    refine .bind (F.operatorAt_tensor tensor x) fun op => ?_
    rw [apply_operator]
    exact F.conjugate_turn op.apply g

theorem hessianAt_tensor (hessian : Tensor ℝ σ) (x : Vec ℝ n) :
    Run.Sends F.conjugate (Newton.hessianAt hessian x)
      (Newton.hessianAt (F.tensor hessian) (F.place x)) :=
  .bind (F.operatorAt_tensor hessian x) fun op => .pure (F.apply_operator op)

theorem smootherAt_tensor (preconditioner : Option (Tensor ℝ σ)) (x : Vec ℝ n) :
    Run.Sends (Option.map F.conjugate) (Newton.smootherAt preconditioner x)
      (Newton.smootherAt (preconditioner.map F.tensor) (F.place x)) := by
  cases preconditioner with
  | none => exact .pure rfl
  | some tensor =>
    exact .bind (F.operatorAt_tensor tensor x) fun op =>
      .pure (congrArg some (F.apply_operator op))

end Frame

/-! ## Criteria -/

/-- A criterion that sees the norm of the gradient and the number of iterations only. -/
inductive Criterion.Metric {α σ : Type} : Criterion α σ → Prop
  | gradientNorm (tolerance : α) : Metric (.gradientNorm tolerance)
  | iterations (limit : Int) : Metric (.iterations limit)
  | any {members : List (Criterion α σ)} (h : ∀ c ∈ members, c.Metric) : Metric (.any members)

/-- What is read as a metric criterion, if it is read at all. -/
def CriterionLike.Metric [RealText] (stop : CriterionLike ℝ σ) : Prop :=
  ∀ c, stop.toCriterion = .ok c → c.Metric

/-- A metric criterion decides in the same way in every frame. -/
theorem Criterion.Metric.holds_turn [RealText] (F : Frame n) {c : Criterion ℝ σ} (h : c.Metric)
    (g : Vec ℝ n) (count : Number ℝ) : c.holds (F.turn g) count = c.holds g count := by
  induction h with
  | gradientNorm tolerance => simp only [Criterion.holds, F.norm_turn]
  | iterations limit => simp only [Criterion.holds]
  | @any members hmembers ih =>
    simp only [Criterion.holds]
    clear hmembers
    induction members with
    | nil => rfl
    | cons c rest ihrest =>
      rw [Criterion.anyHolds, Criterion.anyHolds, ih c List.mem_cons_self,
        ihrest fun c hc => ih c (List.mem_cons_of_mem _ hc)]

/-! ## Counts -/

/-- How many iterations, line searches and evaluations of the gradient a minimization has done. -/
structure Tally where
  iterations : Nat
  searches : Nat
  evaluations : Nat

/-- The counts of a minimization by conjugate gradients. -/
def Conjugate.tally {α : Type} (searches : List (Search α n)) (report : Report α n) : Tally :=
  ⟨report.iterations, searches.length, report.evaluations⟩

/-- The counts of a minimization by truncated Newton steps; an outer iteration may have two
searches. -/
def Newton.tally {α : Type} (outers : List (Outer α n)) (report : Report α n) : Tally :=
  ⟨report.iterations, (outers.map fun outer => outer.tries.trials.length).sum, report.evaluations⟩

section

variable {α : Type} [Numeral α]

/-- A minimization by conjugate gradients with its tally. -/
def Conjugate.tallied (value : Option (ScalarField α σ)) (gradient : VectorField α σ)
    (start : Datum α) (options : Options α σ) (outside : Region α σ)
    (preconditioner : Option (Tensor α σ)) : Run α σ (Array α × Tally) := do
  let task ← Run.ofExcept (Task.read gradient start options outside preconditioner)
  let (searches, report) ← trace task.problem task.rule task.budget task.start
  let x ← publish value report
  return (x, tally searches report)

/-- A minimization by truncated Newton steps with its tally. -/
def Newton.tallied (gradient : VectorField α σ) (hessian : Tensor α σ) (start : Datum α)
    (outside : Region α σ) (options : Options α σ) (preconditioner : Option (Tensor α σ)) :
    Run α σ (Array α × Tally) := do
  let task ← Run.ofExcept (Task.read gradient hessian start outside options preconditioner)
  let (outers, report) ← trace task.problem task.rule task.budget task.start
  Run.debug .newton fun _ => report.line
  return (report.point.toArray, tally outers report)

/-- A minimization does the same without its tally. -/
theorem Conjugate.fst_tallied (value : Option (ScalarField α σ)) (gradient : VectorField α σ)
    (start : Datum α) (options : Options α σ) (outside : Region α σ)
    (preconditioner : Option (Tensor α σ)) :
    Prod.fst <$> tallied value gradient start options outside preconditioner =
      minimizeConjugate value gradient start options outside preconditioner := by
  unfold tallied minimizeConjugate
  rw [map_bind]
  refine bind_congr fun task => ?_
  rw [← snd_trace, map_bind, bind_map_left]
  refine bind_congr fun p => ?_
  rw [map_bind]
  exact bind_pure (publish value p.2)

theorem Newton.fst_tallied (gradient : VectorField α σ) (hessian : Tensor α σ) (start : Datum α)
    (outside : Region α σ) (options : Options α σ) (preconditioner : Option (Tensor α σ)) :
    Prod.fst <$> tallied gradient hessian start outside options preconditioner =
      minimizeNewton gradient hessian start outside options preconditioner := by
  unfold tallied minimizeNewton
  rw [map_bind]
  refine bind_congr fun task => ?_
  rw [← snd_trace, map_bind, bind_map_left]
  refine bind_congr fun p => ?_
  rw [map_bind]
  rfl

end

/-! ## Minimizations of what callers give -/

namespace Conjugate

variable [RealText] (F : Frame n)

theorem Problem.posed_inFrame {criterion : Criterion ℝ σ} (hstop : criterion.Metric)
    (gradient : VectorField ℝ σ) (outside : Region ℝ σ) (preconditioner : Option (Tensor ℝ σ)) :
    (posed n gradient outside preconditioner criterion).InFrame F
      (posed n (F.field gradient) (F.region outside) (preconditioner.map F.tensor) criterion) where
  gradient := F.valueAt_field gradient
  precondition := F.smooth_tensor preconditioner
  outside := F.locating_place fun x => outside x.toArray
  stop g count := hstop.holds_turn F g (.whole count)

/-- The line that sums up a run tells of no coordinates but through the value of the objective. -/
theorem Report.line_placed (report : Report ℝ n) (value : ℝ) :
    Report.line (report.placed F) value = report.line value := by
  unfold line
  rw [report.norm_placed, report.exit_placed, report.iterations_placed, report.evaluations_placed]

theorem publish_placed (value : Option (ScalarField ℝ σ)) (report : Report ℝ n) :
    Run.Sends F.placeArray (publish value report)
      (publish (value.map F.scalar) (report.placed F)) := by
  have hpoint : (report.placed F).point.toArray = F.placeArray report.point.toArray :=
    (F.placeArray_toArray report.point).symm
  unfold publish
  simp only [Report.line_placed F report]
  refine .after _ fun enabled => ?_
  refine .ite Iff.rfl (fun _ => ?_) fun _ => .pure hpoint
  cases value with
  | none => exact .after _ fun value => .after _ fun _ => .pure hpoint
  | some f =>
    have hvalue : F.scalar f (report.placed F).point.toArray = f report.point.toArray :=
      F.locating_place (fun x => f x.toArray) report.point
    simp only [Option.map_some, hvalue]
    exact .after _ fun value => .after _ fun _ => .pure hpoint

omit [RealText] in
theorem tally_placed (searches : List (Search ℝ n)) (report : Report ℝ n) :
    tally (searches.map (Search.placed F)) (report.placed F) = tally searches report := by
  simp only [tally, Minimize.Report.placed, List.length_map]

/-- **A minimization of a problem moved to a frame** returns the point moved to the frame, and has
the same tally. -/
theorem tallied_inFrame {options : Options ℝ σ} (hstop : options.stop.Metric)
    (value : Option (ScalarField ℝ σ)) (gradient : VectorField ℝ σ) (outside : Region ℝ σ)
    (preconditioner : Option (Tensor ℝ σ)) (w : Vec ℝ n) :
    Run.Sends (Prod.map F.placeArray id)
      (tallied value gradient (.vector w.toArray) options outside preconditioner)
      (tallied (value.map F.scalar) (F.field gradient) (.vector (F.place w).toArray) options
        (F.region outside) (preconditioner.map F.tensor)) := by
  unfold tallied Task.read
  simp only [Minimize.Task.setUp_vector, Run.ofExcept_bind, Run.ofExcept_pure, bind_assoc,
    pure_bind]
  refine .check fun settings hsettings => ?_
  have hmetric : settings.stop.Metric := hstop _ (Options.settings_eq_ok hsettings).stop
  refine .bind (trace_placed (Problem.posed_inFrame F hmetric gradient outside preconditioner)
    _ _ w) fun p => ?_
  refine .bind (publish_placed F value p.2) fun x => .pure ?_
  exact congrArg (F.placeArray x, ·) (tally_placed F p.1 p.2)

end Conjugate

namespace Newton

variable [RealText] (F : Frame n)

theorem Problem.posed_inFrame {criterion : Criterion ℝ σ} (hstop : criterion.Metric)
    (gradient : VectorField ℝ σ) (hessian : Tensor ℝ σ) (outside : Region ℝ σ)
    (preconditioner : Option (Tensor ℝ σ)) :
    (posed n gradient hessian outside preconditioner criterion).InFrame F
      (posed n (F.field gradient) (F.tensor hessian) (F.region outside)
        (preconditioner.map F.tensor) criterion) where
  gradient := F.valueAt_field gradient
  hessian := F.hessianAt_tensor hessian
  precondition := F.smootherAt_tensor preconditioner
  outside := F.locating_place fun x => outside x.toArray
  stop g count := hstop.holds_turn F g (.whole count)

/-- The line that sums up a run tells of no coordinates. -/
theorem Report.line_placed (report : Report ℝ n) :
    Report.line (report.placed F) = report.line := by
  unfold line
  rw [report.norm_placed, report.exit_placed, report.iterations_placed, report.evaluations_placed]

omit [RealText] in
theorem tally_placed (outers : List (Outer ℝ n)) (report : Report ℝ n) :
    tally (outers.map (Outer.placed F)) (report.placed F) = tally outers report := by
  have htrials (outer : Outer ℝ n) :
      (outer.placed F).tries.trials.length = outer.tries.trials.length := by
    simp only [Outer.placed, Tries.trials_placed, List.length_map]
  simp only [tally, Minimize.Report.placed, List.map_map, Function.comp_def, htrials]

/-- **A minimization of a problem moved to a frame** returns the point moved to the frame, and has
the same tally. -/
theorem tallied_inFrame {options : Options ℝ σ} (hstop : options.stop.Metric)
    (gradient : VectorField ℝ σ) (hessian : Tensor ℝ σ) (outside : Region ℝ σ)
    (preconditioner : Option (Tensor ℝ σ)) (w : Vec ℝ n) :
    Run.Sends (Prod.map F.placeArray id)
      (tallied gradient hessian (.vector w.toArray) outside options preconditioner)
      (tallied (F.field gradient) (F.tensor hessian) (.vector (F.place w).toArray)
        (F.region outside) options (preconditioner.map F.tensor)) := by
  unfold tallied Task.read
  simp only [Minimize.Task.setUp_vector, Run.ofExcept_bind, Run.ofExcept_pure, bind_assoc,
    pure_bind]
  refine .check fun settings hsettings => ?_
  have hmetric : settings.stop.Metric := hstop _ (Options.settings_eq_ok hsettings).stop
  refine .bind (trace_placed
    (Problem.posed_inFrame F hmetric gradient hessian outside preconditioner) _ _ w) fun p => ?_
  obtain ⟨outers, report⟩ := p
  simp only [Prod.map_apply, Report.line_placed F report, tally_placed]
  refine .after _ fun _ => .pure (congrArg (·, tally outers report) ?_)
  exact (F.placeArray_toArray report.point).symm

end Newton

/-- **Minimizers know no coordinates.** With a metric criterion, a minimizer that is given a problem
moved to a frame does what it does outside, returns the point moved to the frame, and makes the same
number of iterations, of line searches and of evaluations of the gradient. -/
theorem minimizers_in_frame [RealText] (F : Frame n) (gradient : VectorField ℝ σ)
    (outside : Region ℝ σ) (preconditioner : Option (Tensor ℝ σ)) (w : Vec ℝ n) :
    (∀ (value : Option (ScalarField ℝ σ)) (options : Conjugate.Options ℝ σ), options.stop.Metric →
      minimizeConjugate (value.map F.scalar) (F.field gradient) (.vector (F.place w).toArray)
          options (F.region outside) (preconditioner.map F.tensor) =
        F.placeArray <$>
          minimizeConjugate value gradient (.vector w.toArray) options outside preconditioner ∧
      Conjugate.tallied (value.map F.scalar) (F.field gradient) (.vector (F.place w).toArray)
          options (F.region outside) (preconditioner.map F.tensor) =
        Prod.map F.placeArray id <$> Conjugate.tallied value gradient (.vector w.toArray) options
          outside preconditioner) ∧
    ∀ (hessian : Tensor ℝ σ) (options : Newton.Options ℝ σ), options.stop.Metric →
      minimizeNewton (F.field gradient) (F.tensor hessian) (.vector (F.place w).toArray)
          (F.region outside) options (preconditioner.map F.tensor) =
        F.placeArray <$>
          minimizeNewton gradient hessian (.vector w.toArray) outside options preconditioner ∧
      Newton.tallied (F.field gradient) (F.tensor hessian) (.vector (F.place w).toArray)
          (F.region outside) options (preconditioner.map F.tensor) =
        Prod.map F.placeArray id <$> Newton.tallied gradient hessian (.vector w.toArray) outside
          options preconditioner := by
  refine ⟨fun value options hstop => ?_, fun hessian options hstop => ?_⟩
  · have htallied := Conjugate.tallied_inFrame F hstop value gradient outside preconditioner w
    refine ⟨?_, htallied⟩
    rw [← Conjugate.fst_tallied, ← Conjugate.fst_tallied, show Conjugate.tallied _ _ _ _ _ _ = _
      from htallied, Functor.map_map, Functor.map_map]
    rfl
  · have htallied := Newton.tallied_inFrame F hstop gradient hessian outside preconditioner w
    refine ⟨?_, htallied⟩
    rw [← Newton.fst_tallied, ← Newton.fst_tallied, show Newton.tallied _ _ _ _ _ _ = _
      from htallied, Functor.map_map, Functor.map_map]
    rfl

/-- The plane turned by a right angle and moved. -/
noncomputable def Frame.quarterTurn : Frame 2 where
  axes := #v[#v[0, -1], #v[1, 0]]
  origin := #v[1, -1]
  orthogonal v := by
    rw [Mat.applyTransposed_eq_sum]
    ext i hi
    obtain rfl | rfl : i = 0 ∨ i = 1 := by omega
    all_goals simp [Fin.sum_univ_two, Mat.apply, Vec.dot_eq_sum]

/-- The half-plane to the right, as a domain. -/
noncomputable def rightHalfPlane : Region ℝ Unit := fun x => return decide (x.getD 0 0 ≤ 0)

/-- The minimum of `x² + 2 y² - 2 x - 4 y` to the right of zero, sought from `(3, 4)` and from where
this point comes to. -/
theorem minimizers_in_frame_quarterTurn :
    letI := RealText.mute
    let field := diagonalField #[2, 4] #[2, 4]
    let hessian : Tensor ℝ Unit := .constant (.operator (.diagonal #[2, 4]))
    let smoother : Tensor ℝ Unit := .constant (.operator (.diagonal #[1, 2]))
    let F := Frame.quarterTurn
    (minimizeConjugate none (F.field field) (.vector #[-3, 2]) {} (F.region rightHalfPlane)
        (some (F.tensor smoother)) =
      F.placeArray <$>
        minimizeConjugate none field (.vector #[3, 4]) {} rightHalfPlane (some smoother) ∧
    Conjugate.tallied none (F.field field) (.vector #[-3, 2]) {} (F.region rightHalfPlane)
        (some (F.tensor smoother)) =
      Prod.map F.placeArray id <$>
        Conjugate.tallied none field (.vector #[3, 4]) {} rightHalfPlane (some smoother)) ∧
    minimizeNewton (F.field field) (F.tensor hessian) (.vector #[-3, 2])
        (F.region rightHalfPlane) {} (some (F.tensor smoother)) =
      F.placeArray <$>
        minimizeNewton field hessian (.vector #[3, 4]) rightHalfPlane {} (some smoother) ∧
    Newton.tallied (F.field field) (F.tensor hessian) (.vector #[-3, 2])
        (F.region rightHalfPlane) {} (some (F.tensor smoother)) =
      Prod.map F.placeArray id <$>
        Newton.tallied field hessian (.vector #[3, 4]) rightHalfPlane {} (some smoother) := by
  let _ := RealText.mute
  intro field hessian smoother F
  have hplace : F.place #v[3, 4] = #v[-3, 2] := by
    ext i hi
    obtain rfl | rfl : i = 0 ∨ i = 1 := by omega
    all_goals simp [F, Frame.place, Frame.turn, Frame.quarterTurn, Mat.apply, Vec.dot_eq_sum]
    all_goals norm_num
  have hstart : (F.place #v[3, 4]).toArray = #[-3, 2] := congrArg Vector.toArray hplace
  have hmetric : ∀ c : Criterion ℝ Unit,
      (CriterionLike.criterion (.gradientNorm 1e-8)).toCriterion = .ok c → c.Metric := by
    rintro _ ⟨⟩
    exact .gradientNorm 1e-8
  obtain ⟨hconjugate, hnewton⟩ :=
    minimizers_in_frame F field rightHalfPlane (some smoother) #v[3, 4]
  rw [hstart] at hconjugate hnewton
  exact ⟨hconjugate none {} hmetric, hnewton hessian {} hmetric⟩

end Descent
