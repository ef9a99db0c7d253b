import Descent.Proofs.CentralPath.Comparison
import Descent.Proofs.CentralPath.Scaling
import Descent.Proofs.Minimize.Truncation
import Descent.Proofs.Run.Watch
import Descent.Scalar.Double

/-!
# Objectives are only diagnostic

Minimization by conjugate gradients evaluates the objective for a debug line alone. Two runs with
different objectives, from sessions that write different debug lines, end with the same point or
certificate, and all other functions are called in the same way. The objective is evaluated once,
where a run ended, or once for each stage, and never unless the debug line is written.

* `Watch.Evaluates`, `Watch.Attends`: objectives and barriers that may be told apart by nothing;
* `Conjugate.announce_coupled`: the debug line; `minimizeConjugate_coupled`: the minimization;
* `Barrier.noted`: a barrier whose domain is asked about on the record;
* `CentralPath.conjugateStage_arriveAlike`, `Watch.ArriveAlike.next`: one stage;
  `Watch.ArriveAlike.follow`: the path;
* `objective_only_diagnostic`: the minimizers.
-/

namespace Descent

variable {α σ τ : Type} [Numeral α] {w : Watch α σ τ} {old old' : List (Array α)}

omit [Numeral α] in
/-- An objective always has a value, and nothing else is seen of its evaluation than the point. -/
def Watch.Evaluates (w : Watch α σ τ) (f : ScalarField α σ) : Prop :=
  ∀ x, w.Hides (f x) [x]

/-- These points, if there is somebody to tell. -/
def heard {α : Type} (listening : Bool) (points : List (Array α)) : List (Array α) :=
  if listening then points else []

/-- Sessions that are alike, after objectives were evaluated at these points wherever the debug
lines of minimizations are written. -/
def Watch.After (w : Watch α σ τ) (old old' points : List (Array α)) :
    Session α σ → Session α σ → Prop :=
  w.Alike (old ++ heard (w.on .conjugate) points) (old' ++ heard (w.on' .conjugate) points)

omit [Numeral α] in
theorem Watch.after_nil : w.After old old' [] = w.Alike old old' := by
  have hnone (listening : Bool) : heard listening ([] : List (Array α)) = [] := by
    cases listening <;> rfl
  simp only [After, hnone, List.append_nil]

omit [Numeral α] in
theorem Watch.after_append (points more : List (Array α)) :
    w.After (old ++ heard (w.on .conjugate) points) (old' ++ heard (w.on' .conjugate) points) more =
      w.After old old' (points ++ more) := by
  have happend (old : List (Array α)) (listening : Bool) :
      old ++ heard listening points ++ heard listening more =
        old ++ heard listening (points ++ more) := by
    cases listening with
    | false => exact List.append_nil _
    | true => exact List.append_assoc _ _ _
  simp only [After, happend]

/-! ## One minimization -/

namespace Conjugate

/-- The debug line about a minimization, for those who listen. -/
def tell (listening : Bool) (value : Option (ScalarField α σ)) (r : Record α) : Run α σ Unit :=
  if listening then do
    let value ← match value with
      | some f => f r.2.report.point.toArray
      | none => pure Numeral.missing
    Run.debug .conjugate fun _ => r.2.report.line value
  else pure ()

theorem announce_run (value : Option (ScalarField α σ)) (r : Record α) (s : Session α σ) :
    (announce value r).run s =
      (tell (s.listens .conjugate) value r >>= fun _ => pure r.2.report.point.toArray).run s := by
  have hlistens : (Run.debugEnabled .conjugate).run s = .ok (s.listens .conjugate) s := rfl
  rw [announce, publish, EStateM.run_bind, hlistens]
  cases s.listens .conjugate with
  | false => rfl
  | true => cases value <;> simp only [tell, if_true, bind_assoc]

theorem tell_hides {value : Option (ScalarField α σ)} (hvalue : ∀ f ∈ value, w.Evaluates f)
    (listening : Bool) (r : Record α) :
    w.Hides (tell listening value r)
      (heard (listening && value.isSome) [r.2.report.point.toArray]) := by
  cases listening with
  | false => exact .pure
  | true =>
    cases value with
    | none => exact .bind .pure fun _ => .debug _ _
    | some f => exact .bind (hvalue f rfl _) fun _ => .debug _ _

theorem announce_coupled {value value' : Option (ScalarField α σ)}
    (hvalue : ∀ f ∈ value, w.Evaluates f) (hvalue' : ∀ f ∈ value', w.Evaluates f) (r : Record α) :
    Run.Coupled (w.Alike old old') (announce value r) (announce value' r)
      (fun x x' s t => x = x' ∧ w.Alike (old ++ heard (w.on .conjugate && value.isSome) [x])
        (old' ++ heard (w.on' .conjugate && value'.isSome) [x]) s t) fun _ _ => False := by
  intro s t hst
  rw [announce_run, announce_run, hst.listens, hst.listens']
  refine Run.Coupled.bind ((tell_hides hvalue (w.on .conjugate) r).coupled
    (tell_hides hvalue' (w.on' .conjugate) r)) (fun _ _ => ?_) s t hst
  exact .pure fun s' t' h => ⟨rfl, h⟩

end Conjugate

open Conjugate in
/-- **Minimizations end at the same point**, where each evaluates its objective if its debug line is
written. -/
theorem minimizeConjugate_coupled {value value' : Option (ScalarField α σ)}
    {gradient : VectorField α σ} {start : Datum α} {options : Conjugate.Options α σ}
    {outside : Region α σ} {smoother smoother' : Option (Tensor α σ)}
    (hvalue : ∀ f ∈ value, w.Evaluates f) (hvalue' : ∀ f ∈ value', w.Evaluates f)
    (hgradient : ∀ x, w.Respects (gradient x)) (houtside : ∀ x, w.Respects (outside x))
    (hstop : ∀ old old', options.stop.Respects (w.Alike old old'))
    (hsmoother : Option.Rel (Tensor.Lockstep (w.Alike old old')) smoother smoother') :
    Run.Coupled (w.Alike old old')
      (minimizeConjugate value gradient start options outside smoother)
      (minimizeConjugate value' gradient start options outside smoother')
      (fun x x' s t => x = x' ∧ w.Alike (old ++ heard (w.on .conjugate && value.isSome) [x])
        (old' ++ heard (w.on' .conjugate && value'.isSome) [x]) s t) (w.Alike old old') := by
  rw [minimizeConjugate_eq_record, minimizeConjugate_eq_record]
  refine .bind (.of_related (record_lockstep (fun x => hgradient x old old')
    (fun x => houtside x old old') (hstop old old') hsmoother)) fun r r' => ?_
  refine .assuming ?_
  rintro rfl
  exact (announce_coupled hvalue hvalue' r).faults fun _ _ h => h.elim

/-! ## Barriers -/

/-- The functions of a barrier see nothing but what is seen. Its value exists everywhere, and
nothing is seen of it. -/
structure Watch.Attends (w : Watch α σ τ) (barrier : Barrier α σ) : Prop where
  value : ∀ {n : Nat} (x : Vec α n), w.Hides (barrier.value x) []
  gradient : ∀ {n : Nat} (x : Vec α n), w.Respects (barrier.gradient x)
  multipliers : ∀ {n : Nat} (t : α) (x : Vec α n), w.Respects (barrier.multipliers t x)
  outside : ∀ {n : Nat} (x : Vec α n), w.Respects (barrier.outside x)

namespace Family

variable {f : Family α σ} {n : Nat}

theorem violatedFrom_respects (hvalue : ∀ i x, w.Respects (f.value i x)) (x : Vec α n) :
    ∀ left i, w.Respects (f.violatedFrom x left i) := by
  intro left
  induction left with
  | zero => exact fun _ _ _ => .pure rfl
  | succ left ih =>
    intro i old old'
    refine .bind (hvalue i x.toArray old old') ?_
    rintro c _ rfl
    exact .ite Iff.rfl (fun _ => .pure rfl) fun _ => ih (i + 1) old old'

/-- The logarithmic barrier of constraints that see nothing but what is seen, and nothing is seen of
their values. -/
theorem attends (hvalue : ∀ i x, w.Respects (f.value i x))
    (hhides : ∀ i x, w.Hides (f.value i x) []) (hgradient : ∀ i x, w.Respects (f.gradient i x)) :
    w.Attends (.family f) := by
  have hvalues {n : Nat} (x : Vec α n) : w.Respects (f.values x) :=
    fun old old' => .ofFnM fun i => hvalue i x.toArray old old'
  have hslack {n : Nat} (x : Vec α n) : w.Respects (f.slack x) := by
    intro old old'
    refine .bind (hvalues x old old') ?_
    rintro v _ rfl
    exact .pure rfl
  refine ⟨fun x => ?_, fun x old old' => ?_, fun t x old old' => ?_,
    fun x => violatedFrom_respects hvalue x _ _⟩
  · have hvaluesHidden : w.Hides (f.values x) [] := .ofFnM fun i => hhides i x.toArray
    exact .bind (.bind hvaluesHidden fun _ => .pure) fun _ => .pure
  · refine .bind (hslack x old old') ?_
    rintro s _ rfl
    refine .bind (.ofFnM fun i => VectorField.valueAt_respects
      (fun x => hgradient i x old old') "constraint gradient" x) ?_
    rintro rows _ rfl
    exact .pure rfl
  · refine .bind (hvalues x old old') ?_
    rintro v _ rfl
    exact .pure rfl

end Family

namespace Barrier

variable {barrier : Barrier α σ}

/-- The barrier in closed form, with a note of every point that is asked about before it is found to
be outside or not. It has no second derivative. -/
def noted (note : Array α → Run α σ Unit) (barrier : Barrier α σ) : ClosedForm α σ where
  value x := barrier.value (Vec.ofArray x)
  gradient x := do return .vector (← barrier.gradient (Vec.ofArray x)).toArray
  multipliers t x := do return .vector (← barrier.multipliers t (Vec.ofArray x))
  outside x := do
    note x
    barrier.outside (Vec.ofArray x)
  hessian := none

variable {note : Array α → Run α σ Unit} {n : Nat}

theorem gradient_noted (x : Vec α n) :
    (closedForm (barrier.noted note)).gradient x = barrier.gradient x := by
  obtain ⟨a, rfl⟩ := x
  exact VectorField.valueAt_eq rfl "barrier gradient"

theorem multipliers_noted (t : α) (x : Vec α n) :
    (closedForm (barrier.noted note)).multipliers t x = barrier.multipliers t x := by
  obtain ⟨a, rfl⟩ := x
  have hread (entries : Array α) : Run.ofExcept ((Datum.vector entries).toVector "multipliers") =
      (pure entries : Run α σ (Array α)) :=
    rfl
  simp only [multipliers, noted, bind_assoc, pure_bind, hread]
  exact bind_pure _

/-- The notes may be seen. -/
theorem attends_noted (h : w.Attends barrier) (hnote : ∀ x, w.Respects (note x)) :
    w.Attends (.closedForm (barrier.noted note)) where
  value x := h.value (Vec.ofArray x.toArray)
  gradient x := by
    rw [gradient_noted]
    exact h.gradient x
  multipliers t x := by
    rw [multipliers_noted]
    exact h.multipliers t x
  outside x old old' := .bind (hnote x.toArray old old') fun _ _ _ =>
    h.outside (Vec.ofArray x.toArray) old old'

end Barrier

namespace CentralPath

/-- Without a note the path of a barrier in closed form is that of the barrier. -/
theorem minimizeConjugateConstrained_noted {value : Option (ScalarField α σ)}
    {gradient : VectorField α σ} {start : Datum α} {barrier : Barrier α σ} {path : Options α}
    {options : Conjugate.Options α σ} {preconditioner : Option (Preconditioner α σ)} :
    minimizeConjugateConstrained value gradient start
        (.closedForm (barrier.noted fun _ => pure ())) path options preconditioner =
      minimizeConjugateConstrained value gradient start barrier path options preconditioner := by
  have hstage : conjugateStage value gradient (.closedForm (barrier.noted fun _ => pure ()))
      options = conjugateStage value gradient barrier options := by
    funext x t smoother
    unfold conjugateStage stageGradient
    simp only [Barrier.gradient_noted]
    rfl
  have harrive (stage : Stage α σ) : arrive stage (.closedForm (barrier.noted fun _ => pure ()))
      preconditioner = arrive stage barrier preconditioner := by
    funext done x t
    simp only [arrive, Barrier.multipliers_noted]
  unfold minimizeConjugateConstrained followFrom
  simp only [hstage, follow_eq_followWith, harrive]

/-! ## Stages -/

section

variable {f : ScalarField α σ} {gradient : VectorField α σ} {barrier : Barrier α σ}

/-- A preconditioner makes tensors that are in lock-step. -/
def Preconditioner.Respects (J : Session α σ → Session α σ → Prop) (p : Preconditioner α σ) :
    Prop :=
  ∀ t, Run.Related J (Tensor.Lockstep J) (p t) (p t)

theorem stagePreconditioner_lockstep {J : Session α σ → Session α σ → Prop}
    {preconditioner : Option (Preconditioner α σ)}
    (h : ∀ p ∈ preconditioner, p.Respects J) (t : α) :
    Run.Related J (Option.Rel (Tensor.Lockstep J)) (stagePreconditioner preconditioner t)
      (stagePreconditioner preconditioner t) := by
  cases preconditioner with
  | none => exact .pure .none
  | some p =>
    rw [stagePreconditioner_some]
    refine .bind (h p rfl t) fun tensor tensor' htensor => .pure (.some fun {n} x => ?_)
    rw [Tensor.operatorAt_scaled, Tensor.operatorAt_scaled]
    exact .bind (htensor x) fun op op' hop => .pure (hop.scaled t)

/-- The objective of a stage is evaluated where the objective is. -/
theorem stageValue_evaluates (hf : w.Evaluates f) (hbarrier : w.Attends barrier) (t : α) :
    w.Evaluates (stageValue (some f) barrier t) :=
  fun x => .bind (hf x) fun _ => .bind (hbarrier.value (Vec.ofArray x)) fun _ => .pure

theorem stageGradient_respects (hgradient : ∀ x, w.Respects (gradient x))
    (hbarrier : w.Attends barrier) (t : α) (x : Array α) :
    w.Respects (stageGradient gradient barrier t x) := by
  intro old old'
  refine .bind (VectorField.valueAt_respects (fun x => hgradient x old old') "gradient" _) ?_
  rintro a _ rfl
  refine .bind (hbarrier.gradient (Vec.ofArray x) old old') ?_
  rintro b _ rfl
  exact .pure rfl

end

end CentralPath

open CentralPath

variable {f f' : ScalarField α σ} {gradient : VectorField α σ} {barrier : Barrier α σ}
  {options : Conjugate.Options α σ} {preconditioner : Option (Preconditioner α σ)}
  {stage stage' : Stage α σ} {schedule : Schedule α} {x : Array α} {s₀ t₀ : Session α σ}

/-- Two ways to minimize a stage arrive at the same, from sessions that are alike. Objectives are
evaluated where they arrive. -/
def Watch.ArriveAlike (w : Watch α σ τ) (stage stage' : Stage α σ) (barrier : Barrier α σ)
    (preconditioner : Option (Preconditioner α σ)) : Prop :=
  ∀ old old' done x t, Run.Coupled (w.Alike old old')
    (arrive stage barrier preconditioner done x t) (arrive stage' barrier preconditioner done x t)
    (fun a a' s t => a = a' ∧ w.After old old' [a.point] s t)
    (fun s t => ∃ points, w.After old old' points s t)

/-- Two paths from a point have passed the same stages, each from its own session on, and objectives
were evaluated where the stages arrived. -/
structure Watch.Passed (w : Watch α σ τ) (old old' : List (Array α)) (stage stage' : Stage α σ)
    (barrier : Barrier α σ) (schedule : Schedule α) (preconditioner : Option (Preconditioner α σ))
    (x : Array α) (s₀ t₀ : Session α σ) (stages : List (Arrival α)) (y : Array α)
    (s t : Session α σ) : Prop where
  first : CentralPath.Passed stage barrier schedule preconditioner x s₀ stages y s
  second : CentralPath.Passed stage' barrier schedule preconditioner x t₀ stages y t
  after : w.After old old' (stages.map Arrival.point) s t

/-- Two paths from a point ended with one certificate, which counts the stages they passed. -/
def Watch.Certified (w : Watch α σ τ) (old old' : List (Array α)) (stage stage' : Stage α σ)
    (barrier : Barrier α σ) (schedule : Schedule α) (preconditioner : Option (Preconditioner α σ))
    (x : Array α) (s₀ t₀ : Session α σ) (c c' : Certificate α) (s t : Session α σ) : Prop :=
  c = c' ∧ ∃ stages s₁ t₁,
    w.Passed old old' stage stage' barrier schedule preconditioner x s₀ t₀ stages c.optimum s₁ t₁ ∧
    c.stages = stages.length ∧ w.After old old' (stages.map Arrival.point) s t

namespace CentralPath

/-- **One stage** of two paths with different objectives. -/
theorem conjugateStage_arriveAlike (hf : w.Evaluates f) (hf' : w.Evaluates f')
    (hgradient : ∀ x, w.Respects (gradient x)) (hbarrier : w.Attends barrier)
    (hstop : ∀ old old', options.stop.Respects (w.Alike old old'))
    (hpreconditioner : ∀ p ∈ preconditioner, ∀ old old', p.Respects (w.Alike old old')) :
    w.ArriveAlike (conjugateStage (some f) gradient barrier options)
      (conjugateStage (some f') gradient barrier options) barrier preconditioner := by
  intro old old' done x t
  have hunasked {s t : Session α σ} (h : w.Alike old old' s t) :
      ∃ points, w.After old old' points s t := ⟨[], Watch.after_nil ▸ h⟩
  refine .bind ((Run.Coupled.of_related (stagePreconditioner_lockstep
    (fun p hp => hpreconditioner p hp old old') t)).faults fun _ _ => hunasked)
      fun smoother smoother' => .assuming fun hsmoother => ?_
  have hvalue {f : ScalarField α σ} (hf : w.Evaluates f) :
      ∀ g ∈ some (stageValue (some f) barrier t), w.Evaluates g := by
    intro g hg
    rw [← Option.some.inj hg]
    exact stageValue_evaluates hf hbarrier t
  refine .bind ((minimizeConjugate_coupled (hvalue hf) (hvalue hf')
    (stageGradient_respects hgradient hbarrier t)
    (fun y => hbarrier.outside (Vec.ofArray y)) hstop hsmoother).faults fun _ _ => hunasked)
      fun y y' => .assuming ?_
  rintro rfl
  have hrest : Run.Related (w.After old old' [y]) (fun a a' => a = a' ∧ a.point = y)
      (do
        let multipliers ← barrier.multipliers t (Vec.ofArray y)
        let gap := Scalar.ofNat multipliers.size / t
        Run.debug .centralPath fun _ => stageLine (done + 1) t gap
        return (⟨y, multipliers, t, gap⟩ : Arrival α))
      (do
        let multipliers ← barrier.multipliers t (Vec.ofArray y)
        let gap := Scalar.ofNat multipliers.size / t
        Run.debug .centralPath fun _ => stageLine (done + 1) t gap
        return ⟨y, multipliers, t, gap⟩) := by
    refine .bind (hbarrier.multipliers t (Vec.ofArray y) _ _) ?_
    rintro multipliers _ rfl
    exact .bind (Watch.debug_related _ _ _) fun _ _ _ => .pure ⟨rfl, rfl⟩
  refine (Run.Coupled.of_related hrest).conseq (fun s t h => ?_) ?_ fun _ _ h => ⟨[y], h⟩
  · simpa [Watch.After] using h
  · rintro a _ s t ⟨⟨rfl, rfl⟩, h⟩
    exact ⟨rfl, h⟩

end CentralPath

namespace Watch

variable {stages : List (Arrival α)} {y : Array α} {t : α}

/-- **One more stage** of two paths. -/
theorem ArriveAlike.next (h : w.ArriveAlike stage stage' barrier preconditioner)
    (hscale : schedule.scaleOf stages.length = .ok t) :
    Run.Coupled
      (w.Passed old old' stage stage' barrier schedule preconditioner x s₀ t₀ stages y)
      (arrive stage barrier preconditioner stages.length y t)
      (arrive stage' barrier preconditioner stages.length y t)
      (fun a a' s₁ t₁ => a = a' ∧ w.Passed old old' stage stage' barrier schedule preconditioner x
        s₀ t₀ (stages ++ [a]) a.point s₁ t₁)
      (fun s₁ t₁ => ∃ points, w.After old old' points s₁ t₁) := by
  refine ((h (old ++ heard (w.on .conjugate) (stages.map Arrival.point))
    (old' ++ heard (w.on' .conjugate) (stages.map Arrival.point)) stages.length y t).returned
      (T := w.Passed old old' stage stage' barrier schedule preconditioner x s₀ t₀ stages y)).conseq
    (fun s₁ t₁ hpassed => ⟨hpassed, hpassed.after⟩) ?_ ?_
  · rintro a _ s₂ t₂ ⟨⟨s₁, t₁, hpassed, harrive, harrive'⟩, rfl, hafter⟩
    refine ⟨rfl, hpassed.first.next hscale harrive, hpassed.second.next hscale harrive', ?_⟩
    rwa [Watch.after_append, ← List.map_singleton, ← List.map_append] at hafter
  · rintro s₁ t₁ ⟨points, hafter⟩
    rw [Watch.after_append] at hafter
    exact ⟨_, hafter⟩

/-- Debug lines that follow a stage. -/
theorem passed_debug (source : Logging.Source) (line : Unit → String) :
    Run.Coupled
      (w.Passed old old' stage stage' barrier schedule preconditioner x s₀ t₀ stages y)
      (Run.debug source line) (Run.debug source line)
      (fun _ _ s₂ t₂ =>
        (∃ s₁ t₁, w.Passed old old' stage stage' barrier schedule preconditioner x s₀ t₀ stages y
          s₁ t₁) ∧ w.After old old' (stages.map Arrival.point) s₂ t₂)
      (fun s₁ t₁ => ∃ points, w.After old old' points s₁ t₁) := by
  refine ((Run.Coupled.of_related (debug_related source line line)).returned
    (T := w.Passed old old' stage stage' barrier schedule preconditioner x s₀ t₀ stages y)).conseq
    (fun s₁ t₁ hpassed => ⟨hpassed, hpassed.after⟩) ?_ fun s₁ t₁ hafter => ⟨_, hafter⟩
  rintro _ _ s₂ t₂ ⟨⟨s₁, t₁, hpassed, -⟩, -, hafter⟩
  exact ⟨⟨s₁, t₁, hpassed⟩, hafter⟩

/-- Paths that end with a stage end with a certificate. -/
theorem Passed.certified {a : Arrival α} {s₁ t₁ s₂ t₂ : Session α σ}
    (h : w.Passed old old' stage stage' barrier schedule preconditioner x s₀ t₀ (stages ++ [a])
      a.point s₁ t₁)
    (hafter : w.After old old' ((stages ++ [a]).map Arrival.point) s₂ t₂) (status : Status) :
    w.Certified old old' stage stage' barrier schedule preconditioner x s₀ t₀
      (a.certificate status (a.gap :: (stages.map Arrival.gap).reverse))
      (a.certificate status (a.gap :: (stages.map Arrival.gap).reverse)) s₂ t₂ :=
  ⟨rfl, stages ++ [a], s₁, t₁, h, by simp [Arrival.certificate], hafter⟩

/-- One more stage, with which the paths end if it meets the gap. -/
theorem ArriveAlike.pass (h : w.ArriveAlike stage stage' barrier preconditioner)
    (hscale : schedule.scaleOf stages.length = .ok t)
    {rest rest' : Arrival α → Run α σ (Certificate α)}
    (hrest : ∀ a, Run.Coupled
      (w.Passed old old' stage stage' barrier schedule preconditioner x s₀ t₀ (stages ++ [a])
        a.point) (rest a) (rest' a)
      (w.Certified old old' stage stage' barrier schedule preconditioner x s₀ t₀)
      (fun s₁ t₁ => ∃ points, w.After old old' points s₁ t₁)) :
    Run.Coupled
      (w.Passed old old' stage stage' barrier schedule preconditioner x s₀ t₀ stages y)
      (do
        let a ← arrive stage barrier preconditioner stages.length y t
        if a.gap < schedule.dualityGap.ceiling then
          return a.certificate .optimal (a.gap :: (stages.map Arrival.gap).reverse)
        else rest a)
      (do
        let a ← arrive stage' barrier preconditioner stages.length y t
        if a.gap < schedule.dualityGap.ceiling then
          return a.certificate .optimal (a.gap :: (stages.map Arrival.gap).reverse)
        else rest' a)
      (w.Certified old old' stage stage' barrier schedule preconditioner x s₀ t₀)
      (fun s₁ t₁ => ∃ points, w.After old old' points s₁ t₁) := by
  refine .bind (h.next hscale) fun a a' => .assuming ?_
  rintro rfl
  refine .ite Iff.rfl (fun _ => .pure fun s₁ t₁ hpassed => ?_) fun _ => hrest a
  exact hpassed.certified hpassed.after .optimal

/-- **Paths end with the same certificate**, after the same stages. -/
theorem ArriveAlike.follow (h : w.ArriveAlike stage stage' barrier preconditioner) :
    ∀ left (stages : List (Arrival α)) y t, schedule.scaleOf stages.length = .ok t →
    Run.Coupled
      (w.Passed old old' stage stage' barrier schedule preconditioner x s₀ t₀ stages y)
      (follow stage barrier schedule preconditioner left (stages.map Arrival.gap).reverse y t)
      (follow stage' barrier schedule preconditioner left (stages.map Arrival.gap).reverse y t)
      (w.Certified old old' stage stage' barrier schedule preconditioner x s₀ t₀)
      (fun s₁ t₁ => ∃ points, w.After old old' points s₁ t₁) := by
  -- on the stages left; the gaps that the paths carry along are those of the stages passed
  intro left
  induction left with
  | zero =>
    intro stages y t hscale
    unfold CentralPath.follow
    rw [List.length_reverse, List.length_map]
    refine h.pass hscale fun a => ?_
    refine .bind (passed_debug .centralPath fun _ => exhaustedLine a.gap) fun _ _ => .pure ?_
    rintro s₂ t₂ ⟨⟨s₁, t₁, hpassed⟩, hafter⟩
    exact hpassed.certified hafter .stageBudget
  | succ left ih =>
    intro stages y t hscale
    unfold CentralPath.follow
    rw [List.length_reverse, List.length_map]
    refine h.pass hscale fun a => ?_
    refine .check (fun s₁ t₁ hpassed => ⟨_, hpassed.after⟩) fun factor hfactor => ?_
    have hgaps : a.gap :: (stages.map Arrival.gap).reverse =
        ((stages ++ [a]).map Arrival.gap).reverse := by simp
    rw [hgaps]
    refine ih (stages ++ [a]) a.point (t * factor) ?_
    rw [List.length_append, List.length_singleton]
    exact Schedule.scaleOf_succ hscale hfactor

/-- Paths from a start as callers give it. -/
theorem ArriveAlike.followFrom (h : w.ArriveAlike stage stage' barrier preconditioner)
    (start : Datum α) (hst : w.Alike old old' s₀ t₀) :
    Run.Coupled (fun s t => s = s₀ ∧ t = t₀)
      (followFrom stage barrier schedule preconditioner start)
      (followFrom stage' barrier schedule preconditioner start)
      (fun c c' s t => ∃ x, start.toVector "w0" = .ok x ∧
        w.Certified old old' stage stage' barrier schedule preconditioner x s₀ t₀ c c' s t)
      (fun s t => ∃ points, w.After old old' points s t) := by
  have hafter : w.After old old' [] s₀ t₀ := after_nil ▸ hst
  have hfault (s t : Session α σ) (hstart : s = s₀ ∧ t = t₀) :
      ∃ points, w.After old old' points s t := by
    obtain ⟨rfl, rfl⟩ := hstart
    exact ⟨[], hafter⟩
  refine .check hfault fun x hx => .check hfault fun t ht => ?_
  have hpassed : w.Passed old old' stage stage' barrier schedule preconditioner x s₀ t₀ [] x s₀
      t₀ := ⟨.start, .start, hafter⟩
  refine (h.follow _ [] x t ht).conseq ?_ (fun c c' s₁ t₁ hcertified => ⟨x, hx, hcertified⟩)
    fun _ _ hfault => hfault
  rintro _ _ ⟨rfl, rfl⟩
  exact hpassed

end Watch

/-! ## The minimizers -/

/-- **The objective and the debug lines are only diagnostic.** Two minimizations with different
objectives, or with none, from sessions in which different debug lines are written, return the same
point, or the same certificate, and nothing that the other functions see is different. Where its
debug line is written, a minimization evaluates its objective once, at the point it returns, and a
constrained one once for each stage, at the point where the stage ended; elsewhere never. What a
barrier is asked about its domain may be seen as well: the path is that of a barrier in closed form
which notes it. -/
theorem objective_only_diagnostic (w : Watch α σ τ) (gradient : VectorField α σ) (start : Datum α)
    (options : Conjugate.Options α σ) (hgradient : ∀ x, w.Respects (gradient x))
    (hstop : ∀ old old', options.stop.Respects (w.Alike old old')) :
    (∀ (value value' : Option (ScalarField α σ)) (outside : Region α σ)
      (smoother : Option (Tensor α σ)), (∀ f ∈ value, w.Evaluates f) →
      (∀ f ∈ value', w.Evaluates f) → (∀ x, w.Respects (outside x)) →
      (∀ tensor ∈ smoother, ∀ old old', Tensor.Lockstep (w.Alike old old') tensor tensor) →
      ∀ old old', Run.Coupled (w.Alike old old')
        (minimizeConjugate value gradient start options outside smoother)
        (minimizeConjugate value' gradient start options outside smoother)
        (fun x x' s t => x = x' ∧ w.Alike (old ++ heard (w.on .conjugate && value.isSome) [x])
          (old' ++ heard (w.on' .conjugate && value'.isSome) [x]) s t)
        (w.Alike old old')) ∧
    (∀ (f f' : ScalarField α σ) (barrier : Barrier α σ) (path : CentralPath.Options α)
      (preconditioner : Option (Preconditioner α σ)), w.Evaluates f → w.Evaluates f' →
      w.Attends barrier →
      (∀ p ∈ preconditioner, ∀ old old', p.Respects (w.Alike old old')) →
      ∀ old old' s₀ t₀, w.Alike old old' s₀ t₀ → Run.Coupled (fun s t => s = s₀ ∧ t = t₀)
        (minimizeConjugateConstrained (some f) gradient start barrier path options preconditioner)
        (minimizeConjugateConstrained (some f') gradient start barrier path options preconditioner)
        (fun c c' s t => ∃ schedule x, path.schedule = .ok schedule ∧
          start.toVector "w0" = .ok x ∧
          w.Certified old old' (conjugateStage (some f) gradient barrier options)
            (conjugateStage (some f') gradient barrier options) barrier schedule preconditioner
            x s₀ t₀ c c' s t)
        (fun s t => ∃ points, w.After old old' points s t)) ∧
    (∀ (barrier : Barrier α σ) (note : Array α → Run α σ Unit), w.Attends barrier →
      (∀ x, w.Respects (note x)) → w.Attends (.closedForm (barrier.noted note))) ∧
    ∀ (value : Option (ScalarField α σ)) (barrier : Barrier α σ) (path : CentralPath.Options α)
      (preconditioner : Option (Preconditioner α σ)),
      minimizeConjugateConstrained value gradient start
          (.closedForm (barrier.noted fun _ => pure ())) path options preconditioner =
        minimizeConjugateConstrained value gradient start barrier path options preconditioner := by
  refine ⟨?_, ?_, fun _ _ hbarrier hnote => Barrier.attends_noted hbarrier hnote,
    fun _ _ _ _ => minimizeConjugateConstrained_noted⟩
  · intro value value' outside smoother hvalue hvalue' houtside hsmoother old old'
    refine minimizeConjugate_coupled hvalue hvalue' hgradient houtside hstop ?_
    cases smoother with
    | none => exact .none
    | some tensor => exact .some (hsmoother tensor rfl old old')
  · intro f f' barrier path preconditioner hf hf' hbarrier hpreconditioner old old' s₀ t₀ hst
    refine .check (fun s t hstart => ?_) fun schedule hschedule => ?_
    · obtain ⟨rfl, rfl⟩ := hstart
      exact ⟨[], Watch.after_nil ▸ hst⟩
    · exact ((conjugateStage_arriveAlike hf hf' hgradient hbarrier hstop
        hpreconditioner).followFrom start hst).conseq (fun _ _ h => h)
          (fun _ _ _ _ ⟨x, hx, hcertified⟩ => ⟨schedule, x, hschedule, hx, hcertified⟩)
          fun _ _ h => h

/-! ## Calls on record -/

/-- The calls of a caller's functions, by name and with the point, and the points at which an
objective was evaluated. -/
structure Calls where
  written : List (String × Array Float)
  evaluated : List (Array Float)

namespace Calls

/-- What is watched where all debug lines are written, or none. -/
def watch (on on' : Bool) : Watch Float Calls (List (String × Array Float)) :=
  ⟨Calls.written, Calls.evaluated, fun _ => on, fun _ => on'⟩

/-- Writes down a call. -/
def write (name : String) (x : Array Float) : Run Float Calls Unit :=
  modify fun s => { s with
    caller := { s.caller with written := s.caller.written ++ [(name, x)] } }

/-- An objective whose evaluations are listed. -/
def objective (f : Array Float → Float) : ScalarField Float Calls := fun x => do
  modify fun s => { s with caller := { s.caller with evaluated := s.caller.evaluated ++ [x] } }
  return f x

/-- A function whose calls are written down. -/
def field (name : String) (f : Array Float → Array Float) : VectorField Float Calls := fun x => do
  write name x
  return .vector (f x)

/-- The criterion that the first entry of the gradient is small. It is written down when asked. -/
def nearlyFlat : CriterionLike Float Calls :=
  .condition (.onGradient fun g => do
    write "criterion" g
    return decide (g.getD 0 0 * g.getD 0 0 < 0.01))

/-- A number that is at most one. -/
def atMostOne : Family Float Calls where
  count := 1
  value _ x := return x.getD 0 0 - 1
  gradient _ := field "constraint" fun _ => #[1]
  hessian := none
  hessianDiagonal := none

/-- The identity as a preconditioner, whose calls are written down. -/
def plain : Preconditioner Float Calls := fun t => do
  write "preconditioner" #[t]
  return .constant (.operator .identity)

variable {on on' : Bool} {old old' : List (Array Float)}

theorem write_respects (name : String) (x : Array Float) :
    (watch on on').Respects (write name x) := by
  intro old old' s t h
  refine ⟨⟨h.listens, h.listens', h.tables, ?_, h.asked, h.asked'⟩, rfl⟩
  exact congrArg (· ++ [(name, x)]) h.seen

theorem objective_evaluates (f : Array Float → Float) : (watch on on').Evaluates (objective f) :=
  fun x _ => ⟨f x, _, rfl, rfl, rfl, rfl, rfl⟩

theorem field_respects (name : String) (f : Array Float → Array Float) (x : Array Float) :
    (watch on on').Respects (field name f x) :=
  fun old old' => .bind (write_respects name x old old') fun _ _ _ => .pure rfl

theorem nearlyFlat_respects : nearlyFlat.Respects ((watch on on').Alike old old') := by
  rintro _ ⟨⟩ n g k
  exact .bind (write_respects _ _ _ _) fun _ _ _ => .pure rfl

theorem plain_respects : plain.Respects ((watch on on').Alike old old') := by
  refine fun t => .bind (write_respects _ _ _ _) fun _ _ _ => .pure fun x => ?_
  exact .pure ⟨rfl, fun v => .pure rfl⟩

theorem attends_atMostOne :
    (watch on on').Attends (.closedForm ((Barrier.family atMostOne).noted (write "domain"))) :=
  Barrier.attends_noted (Family.attends (fun _ _ _ _ => .pure rfl) (fun _ _ => .pure)
    fun _ => field_respects _ _) (write_respects _)

end Calls

/-- A number is drawn to two. With and without an objective, and with different ones below the bound
of one, the runs return, and the calls that were written down are the same. -/
theorem objective_only_diagnostic_halfline :
    let gradient := Calls.field "gradient" fun x => #[x.getD 0 0 - 2]
    let f := Calls.objective fun x => (x.getD 0 0 - 2) * (x.getD 0 0 - 2) / 2
    let f' := Calls.objective fun _ => 0
    let options : Conjugate.Options Float Calls :=
      { stop := Calls.nearlyFlat, lineSearchThreshold := .number (.real 0.1) }
    let barrier := .closedForm ((Barrier.family Calls.atMostOne).noted (Calls.write "domain"))
    let path : CentralPath.Options Float := { dualityGap := .number (.real 0.5) }
    (∃ x s t,
      (minimizeConjugate (some f) gradient (.vector #[0]) options Region.everywhere none).run
        (.listening ⟨[], []⟩) = .ok x s ∧
      (minimizeConjugate none gradient (.vector #[0]) options Region.everywhere none).run
        (.initial ⟨[], []⟩) = .ok x t ∧
      s.caller.written = t.caller.written ∧ s.caller.evaluated = [x] ∧ t.caller.evaluated = []) ∧
    ∃ c s t,
      (minimizeConjugateConstrained (some f) gradient (.vector #[0]) barrier path options
        (some Calls.plain)).run (.listening ⟨[], []⟩) = .ok c s ∧
      (minimizeConjugateConstrained (some f') gradient (.vector #[0]) barrier path options
        (some Calls.plain)).run (.initial ⟨[], []⟩) = .ok c t ∧
      s.caller.written = t.caller.written ∧ s.caller.evaluated.length = c.stages ∧
      t.caller.evaluated = [] := by
  intro gradient f f' options barrier path
  obtain ⟨hminimize, hconstrained, -⟩ := objective_only_diagnostic (Calls.watch true false) gradient
    (.vector #[0]) options (Calls.field_respects _ _) fun _ _ => Calls.nearlyFlat_respects
  have hlistens : (Session.listening ⟨[], []⟩ : Session Float Calls).listens = fun _ => true :=
    funext fun source => by cases source <;> decide +kernel
  have hlistens' : (Session.initial ⟨[], []⟩ : Session Float Calls).listens = fun _ => false :=
    funext fun source => by cases source <;> decide +kernel
  have halike : (Calls.watch true false).Alike [] [] (.listening ⟨[], []⟩) (.initial ⟨[], []⟩) :=
    ⟨hlistens, hlistens', rfl, rfl, rfl, rfl⟩
  constructor
  · obtain ⟨x, s, hrun⟩ := Run.returns_of_fault? (minimizeConjugate (some f) gradient
      (.vector #[0]) options Region.everywhere none) (.listening ⟨[], []⟩) (by decide +kernel)
    have hvalue : ∀ g ∈ some f, (Calls.watch true false).Evaluates g := by
      rintro _ ⟨⟩
      exact Calls.objective_evaluates _
    obtain ⟨_, t, hrun', rfl, hafter⟩ := (hminimize (some f) none Region.everywhere none hvalue
      nofun (fun _ _ _ => .pure rfl) nofun [] []).of_ok halike hrun
    exact ⟨x, s, t, hrun, hrun', hafter.seen, hafter.asked, hafter.asked'⟩
  · obtain ⟨c, s, hrun⟩ := Run.returns_of_fault? (minimizeConjugateConstrained (some f) gradient
      (.vector #[0]) barrier path options (some Calls.plain)) (.listening ⟨[], []⟩)
      (by decide +kernel)
    have hplain : ∀ p ∈ some Calls.plain, ∀ old old',
        p.Respects ((Calls.watch true false).Alike old old') := by
      rintro _ ⟨⟩ old old'
      exact Calls.plain_respects
    obtain ⟨_, t, hrun', _, _, -, -, rfl, stages, _, _, -, hcount, hafter⟩ := (hconstrained f f'
      barrier path (some Calls.plain) (Calls.objective_evaluates _) (Calls.objective_evaluates _)
      Calls.attends_atMostOne hplain [] [] _ _ halike).of_ok ⟨rfl, rfl⟩ hrun
    have hasked : s.caller.evaluated = stages.map CentralPath.Arrival.point := hafter.asked
    refine ⟨c, s, t, hrun, hrun', hafter.seen, ?_, hafter.asked'⟩
    rw [hasked, List.length_map, hcount]

end Descent
