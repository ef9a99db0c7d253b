import Descent.Proofs.CentralPath.Comparison
import Descent.Proofs.CentralPath.Duality
import Descent.Proofs.CentralPath.Inside
import Descent.Proofs.CentralPath.Schedule
import Descent.Proofs.Minimize.Resume

/-!
# Paths stopped and resumed

A path carries nothing from one stage to the next but the point and the scale: stopped after any
number of stages and followed from there at the next scale, it ends with the same certificate, apart
from what is counted and recorded of the stages.

* `CentralPath.resumed`: a path followed in two parts, and `CentralPath.Certificate.joined`, the
  certificate of both;
* `CentralPath.follow_compares_resumed`: the path followed in one part compares with it;
* `stopped_and_resumed`: so do the minimizers for callers whose functions always give the same
  answers.
-/

namespace Descent

namespace CentralPath

/-- What is known of a path from the certificates of its first and of its second part. -/
def Certificate.joined {α : Type} (first second : Certificate α) : Certificate α :=
  { second with
    stages := first.stages + second.stages
    gapHistory := first.gapHistory ++ second.gapHistory }

variable {α σ : Type} [Numeral α]

/-- The options with another budget. -/
def Options.within (path : Options α) (K : Nat) : Options α :=
  { path with maxStages := .number (.whole K) }

/-- The options for the stages from a scale on. -/
def Options.startingAt (path : Options α) (t : α) : Options α :=
  { path with initialScale := .number (.real t) }

/-- What follows the first part of a path: nothing if its gap is small enough, else at most `j` more
stages from where it ended, at the next scale. -/
def proceed (minimize : Datum α → Options α → Run α σ (Certificate α)) (path : Options α) (j : Nat)
    (first : Certificate α) : Run α σ (Certificate α) := do
  if first.status = .optimal then return first
  else
    let factor ← Run.ofExcept (path.scaleFactor.toNumber >>= Number.toScalar)
    let second ← minimize (.vector first.optimum)
      ((path.startingAt (first.scale * factor)).within j)
    return first.joined second

/-- A path that is stopped after at most `k` stages and resumed for at most `j` more. -/
def resumed (minimize : Datum α → Options α → Run α σ (Certificate α)) (start : Datum α)
    (path : Options α) (k j : Nat) : Run α σ (Certificate α) := do
  proceed minimize path j (← minimize start (path.within k))

/-- The certificate of a path with other stages before it, given their gaps, the last one first. -/
def Certificate.following (earlier : List α) (c : Certificate α) : Certificate α :=
  { c with
    stages := c.stages + earlier.length
    gapHistory := earlier.reverse ++ c.gapHistory }

omit [Numeral α] in
theorem Arrival.certificate_following (a : Arrival α) (status : Status) (gaps earlier : List α) :
    (a.certificate status gaps).following earlier = a.certificate status (gaps ++ earlier) := by
  simp [Certificate.following, Arrival.certificate]

omit [Numeral α] in
theorem Arrival.joined_certificate (a : Arrival α) (status : Status) (gaps : List α)
    (second : Certificate α) :
    (a.certificate status gaps).joined second = second.following gaps := by
  simp [Certificate.following, Certificate.joined, Arrival.certificate, Nat.add_comm]

section

variable {I : Invariant α σ} {on : Logging.Source → Bool} {L : Operator.Likeness (.apart I on)}
  {stage : Stage α σ} {barrier : Barrier α σ} {preconditioner : Option (Preconditioner α σ)}
  {schedule : Schedule α}

/-- The stages of one path from a point do not depend on how many were counted before. -/
theorem arrive_compares_recounted
    (hstage : Stage.Compare L (fun _ => True) stage stage)
    (hbarrier : barrier.Compare L (fun _ => True) barrier)
    (hpreconditioner : ∀ p ∈ preconditioner, p.CompareBy L (fun _ => True) p)
    (done done' : Nat) (x : Array α) (t : α) :
    (Comparison.apart I on).Compares (fun a a' => a = a' ∧ a.scale = t ∧ True)
      (arrive stage barrier preconditioner done x t)
      (arrive stage barrier preconditioner done' x t) :=
  arrive_compares hstage hbarrier (Option.rel_self hpreconditioner) trivial t fun _ =>
    (Run.Settles.debug _ _).compares (Run.Settles.debug _ _)

/-- Earlier stages only enter what is counted and recorded. -/
theorem follow_compares_following
    (hstage : Stage.Compare L (fun _ => True) stage stage)
    (hbarrier : barrier.Compare L (fun _ => True) barrier)
    (hpreconditioner : ∀ p ∈ preconditioner, p.CompareBy L (fun _ => True) p)
    (schedule : Schedule α) (earlier : List α) :
    ∀ left gaps x t, (Comparison.apart I on).Compares (fun d d' => d = d'.following earlier)
      (follow stage barrier schedule preconditioner left (gaps ++ earlier) x t)
      (follow stage barrier schedule preconditioner left gaps x t) := by
  intro left
  induction left with
  | zero =>
    intro gaps x t
    refine .bind (arrive_compares_recounted hstage hbarrier hpreconditioner _ _ x t) ?_
    rintro a _ ⟨rfl, -⟩
    have hcertificate (status : Status) :
        a.certificate status (a.gap :: (gaps ++ earlier)) =
          (a.certificate status (a.gap :: gaps)).following earlier :=
      (a.certificate_following status (a.gap :: gaps) earlier).symm
    refine .ite Iff.rfl (fun _ => .pure (hcertificate _)) fun _ => ?_
    exact .bind (.debug _ _) fun _ _ _ => .pure (hcertificate _)
  | succ left ih =>
    intro gaps x t
    refine .bind (arrive_compares_recounted hstage hbarrier hpreconditioner _ _ x t) ?_
    rintro a _ ⟨rfl, -⟩
    refine .ite Iff.rfl (fun _ => .pure ?_) fun _ => .check fun factor _ => ih (a.gap :: gaps) _ _
    exact (a.certificate_following .optimal (a.gap :: gaps) earlier).symm

/-- What follows the first part of a path: nothing if its gap is small enough. -/
def resume (next : Array α → α → Run α σ (Certificate α)) (schedule : Schedule α)
    (first : Certificate α) : Run α σ (Certificate α) := do
  if first.status = .optimal then return first
  else
    let factor ← Run.ofExcept schedule.scaleFactor.toScalar
    let second ← next first.optimum (first.scale * factor)
    return first.joined second

/-- **A path is what its first part and its second part are together.** -/
theorem follow_compares_resume
    (hstage : Stage.Compare L (fun _ => True) stage stage)
    (hbarrier : barrier.Compare L (fun _ => True) barrier)
    (hpreconditioner : ∀ p ∈ preconditioner, p.CompareBy L (fun _ => True) p) (j : Nat) :
    ∀ k gaps x t, (Comparison.apart I on).Compares Eq
      (follow stage barrier schedule preconditioner (k + 1 + j) gaps x t)
      (follow stage barrier schedule preconditioner k gaps x t >>=
        resume (follow stage barrier schedule preconditioner j []) schedule) := by
  intro k
  induction k with
  | zero =>
    intro gaps x t
    rw [Nat.zero_add, Nat.add_comm 1 j, follow, follow, bind_assoc]
    refine .bind (arrive_compares_recounted hstage hbarrier hpreconditioner _ _ x t) ?_
    rintro a _ ⟨rfl, rfl, -⟩
    by_cases hgap : a.gap < schedule.dualityGap.ceiling
    · rw [if_pos hgap, if_pos hgap]
      exact .pure rfl
    · rw [if_neg hgap, if_neg hgap, bind_assoc]
      refine Run.Settles.after_debug ?_ _ _
      refine .check fun factor _ => ?_
      have hfollow := follow_compares_following hstage hbarrier hpreconditioner schedule
        (a.gap :: gaps) j [] a.point (a.scale * factor)
      rw [← bind_pure (follow stage barrier schedule preconditioner j (a.gap :: gaps) a.point _)]
      refine .bind hfollow ?_
      rintro d d' rfl
      exact .pure (a.joined_certificate .stageBudget (a.gap :: gaps) d').symm
  | succ k ih =>
    intro gaps x t
    rw [Nat.add_right_comm (k + 1) 1 j, follow, follow, bind_assoc]
    refine .bind (arrive_compares_recounted hstage hbarrier hpreconditioner _ _ x t) ?_
    rintro a _ ⟨rfl, rfl, -⟩
    by_cases hgap : a.gap < schedule.dualityGap.ceiling
    · rw [if_pos hgap, if_pos hgap]
      exact .pure rfl
    · rw [if_neg hgap, if_neg hgap, bind_assoc]
      exact .check fun factor _ => ih (a.gap :: gaps) a.point (a.scale * factor)

/-! ## Paths for callers -/

variable {path : Options α} {k j : Nat}

theorem stages_insist (hk : 1 ≤ k) :
    (Datum.number (.whole k) : Datum α).insist "max_stages" .atLeastOne = .ok (.whole k) := by
  have hadmits : (Number.whole k : Number α).admits .atLeastOne = true := by
    simp only [Number.admits, Number.isBelow, Bool.not_eq_true', decide_eq_false_iff_not]
    omega
  exact Datum.insist_of_admits hadmits _

/-- The budget is all that the schedule owes to it. -/
theorem Options.schedule_within (hk : 1 ≤ k) (hj : 1 ≤ j) :
    (path.within j).schedule =
      (fun s => { s with maxStages := .whole j }) <$> (path.within k).schedule := by
  simp only [Options.schedule, Options.within, stages_insist hk, stages_insist hj, map_bind,
    map_pure]
  rfl

/-- The schedule from another scale on. -/
theorem Options.schedule_startingAt (hj : 1 ≤ j) (h : (path.within k).schedule = .ok schedule)
    {t : α} (ht : (Number.real t).admits .positive = true) :
    ((path.startingAt t).within j).schedule =
      .ok { schedule with initialScale := .real t, maxStages := .whole j } := by
  obtain ⟨gap, hgap, h⟩ := Fault.bind_eq_ok h
  obtain ⟨scale, hscale, h⟩ := Fault.bind_eq_ok h
  obtain ⟨factor, hfactor, h⟩ := Fault.bind_eq_ok h
  obtain ⟨stages, hstages, h⟩ := Fault.bind_eq_ok h
  cases h
  simp only [Options.within] at hgap hfactor
  simp only [Options.schedule, Options.within, Options.startingAt, stages_insist hj, hgap,
    Datum.insist_of_admits ht, hfactor]
  rfl

/-- The factor is the number that callers have set. -/
theorem Options.scaleFactor_of_schedule (h : (path.within k).schedule = .ok schedule) :
    path.scaleFactor.toNumber = .ok schedule.scaleFactor := by
  obtain ⟨_, _, h⟩ := Fault.bind_eq_ok h
  obtain ⟨_, _, h⟩ := Fault.bind_eq_ok h
  obtain ⟨_, hfactor, h⟩ := Fault.bind_eq_ok h
  obtain ⟨_, _, h⟩ := Fault.bind_eq_ok h
  cases h
  exact Datum.toNumber_of_insist hfactor

theorem Options.maxStages_of_schedule (h : (path.within k).schedule = .ok schedule) :
    schedule.maxStages = .whole k := by
  obtain ⟨_, _, h⟩ := Fault.bind_eq_ok h
  obtain ⟨_, _, h⟩ := Fault.bind_eq_ok h
  obtain ⟨_, _, h⟩ := Fault.bind_eq_ok h
  obtain ⟨_, hstages, h⟩ := Fault.bind_eq_ok h
  cases h
  exact (Except.ok.inj (Datum.toNumber_of_insist hstages)).symm

/-- A path from a start on only depends on how its scales grow and on the gap to reach. -/
theorem follow_of_schedule (scale : Number α) (stages : Number α) : ∀ left gaps x t,
    follow stage barrier { schedule with initialScale := scale, maxStages := stages }
      preconditioner left gaps x t =
    follow stage barrier schedule preconditioner left gaps x t := by
  intro left
  induction left with
  | zero => exact fun _ _ _ => rfl
  | succ left ih =>
    intro gaps x t
    rw [follow, follow]
    simp only [ih]

/-- A path from data as callers give them, if it is admitted. -/
def pursue (admission : Except Fault Unit) (stage : Stage α σ) (barrier : Barrier α σ)
    (preconditioner : Option (Preconditioner α σ)) (start : Datum α) (path : Options α) :
    Run α σ (Certificate α) := do
  let schedule ← Run.ofExcept path.schedule
  Run.ofExcept admission
  followFrom stage barrier schedule preconditioner start

theorem pursue_of_schedule (admission : Except Fault Unit) (start : Datum α)
    (h : path.schedule = .ok schedule) :
    pursue admission stage barrier preconditioner start path = (do
      Run.ofExcept admission
      let x ← Run.ofExcept (start.toVector "w0")
      let t ← Run.ofExcept schedule.initialScale.toScalar
      let left := schedule.maxStages.roundsUntil - 1
      follow stage barrier schedule preconditioner left [] x t) := by
  unfold pursue
  rw [h]
  rfl

theorem pursue_of_fault (admission : Except Fault Unit) (start : Datum α) {fault : Fault}
    (h : path.schedule = .error fault) :
    pursue admission stage barrier preconditioner start path = throw fault := by
  unfold pursue
  rw [h]
  rfl

/-- A path from a vector at a scale. -/
theorem pursue_vector {admission : Except Fault Unit} (hadmission : admission = .ok ())
    (hj : 1 ≤ j) (h : (path.within k).schedule = .ok schedule) {t : α}
    (ht : (Number.real t).admits .positive = true) (x : Array α) :
    pursue admission stage barrier preconditioner (.vector x) ((path.startingAt t).within j) =
      follow stage barrier schedule preconditioner (j - 1) [] x t := by
  rw [pursue_of_schedule _ _ (Options.schedule_startingAt hj h ht), hadmission]
  exact follow_of_schedule _ _ _ _ _ _

/-- The scales of a path stay within the bound on a first scale. -/
def Options.ScalesPositive (path : Options α) : Prop :=
  ∀ schedule, path.schedule = .ok schedule → ∀ i t, schedule.scaleOf i = .ok t →
    (Number.real t).admits .positive = true

/-- The second part of a path is followed from where the first one ended. -/
theorem proceed_pursue {admission : Except Fault Unit} (hadmission : admission = .ok ())
    (hj : 1 ≤ j) (h : (path.within k).schedule = .ok schedule)
    (hscales : (path.within k).ScalesPositive) {first : Certificate α}
    (hfirst : ∃ i, schedule.scaleOf i = .ok first.scale) :
    proceed (pursue admission stage barrier preconditioner) path j first =
      resume (follow stage barrier schedule preconditioner (j - 1) []) schedule first := by
  unfold proceed resume
  split
  · rfl
  · rw [Options.scaleFactor_of_schedule h]
    show (Run.ofExcept schedule.scaleFactor.toScalar >>= _) = _
    cases hfactor : schedule.scaleFactor.toScalar with
    | error fault => rfl
    | ok factor =>
      obtain ⟨i, hi⟩ := hfirst
      have ht := hscales schedule h (i + 1) _ (Schedule.scaleOf_succ hi hfactor)
      show (pursue admission stage barrier preconditioner _ _ >>= _) = _
      rw [pursue_vector hadmission hj h ht]
      rfl

/-- The scale of a certificate is one of the path. -/
theorem follow_scale (left : Nat) (gaps : List α) (x : Array α) {t : α}
    (ht : ∃ i, schedule.scaleOf i = .ok t) :
    (follow stage barrier schedule preconditioner left gaps x t).Keeps Invariant.none fun c =>
      ∃ i, schedule.scaleOf i = .ok c.scale := by
  refine (follow_keeps (S := fun _ => True) (W := fun t => ∃ i, schedule.scaleOf i = .ok t)
    (fun x t smoother _ _ => (Run.keeps_none _).mono fun _ _ => trivial)
    (fun t x _ => Run.keeps_none _)
    (fun p _ t => (Run.keeps_none (p t)).mono fun tensor _ =>
      tensor.keptOn_none fun _ => True)
    (fun t factor ⟨i, hi⟩ hfactor => ⟨i + 1, Schedule.scaleOf_succ hi hfactor⟩)
    left gaps x t trivial ht).mono ?_
  rintro c ⟨a, -, ha, status, gaps, rfl⟩
  exact ha

/-- **A path for callers is what its two parts are together.** -/
theorem pursue_compares_resumed (admission : Except Fault Unit) (start : Datum α)
    (hstage : Stage.Compare L (fun _ => True) stage stage)
    (hbarrier : barrier.Compare L (fun _ => True) barrier)
    (hpreconditioner : ∀ p ∈ preconditioner, p.CompareBy L (fun _ => True) p)
    (hk : 1 ≤ k) (hj : 1 ≤ j) (hscales : (path.within k).ScalesPositive) :
    (Comparison.apart I on).Compares Eq
      (pursue admission stage barrier preconditioner start (path.within (k + j)))
      (resumed (pursue admission stage barrier preconditioner) start path k j) := by
  unfold resumed
  cases hschedule : (path.within k).schedule with
  | error fault =>
    have hlong : (path.within (k + j)).schedule = .error fault := by
      rw [Options.schedule_within hk (Nat.le_add_right_of_le hk), hschedule]
      rfl
    rw [pursue_of_fault _ _ hlong, pursue_of_fault _ _ hschedule]
    exact .throw
  | ok schedule =>
    have hlong : (path.within (k + j)).schedule =
        .ok { schedule with maxStages := .whole ↑(k + j) } := by
      rw [Options.schedule_within hk (Nat.le_add_right_of_le hk), hschedule]
      rfl
    rw [pursue_of_schedule _ _ hlong, pursue_of_schedule _ _ hschedule, bind_assoc]
    refine .check fun _ hadmission => ?_
    rw [bind_assoc]
    refine .check fun w _ => ?_
    rw [bind_assoc]
    refine .check fun t ht => ?_
    have hbudget : (Number.whole ↑(k + j) : Number α).roundsUntil - 1 = k - 1 + 1 + (j - 1) := by
      simp only [Number.roundsUntil, Int.toNat_natCast]
      omega
    have hfirst : schedule.maxStages.roundsUntil - 1 = k - 1 := by
      rw [Options.maxStages_of_schedule hschedule]
      rfl
    have hrest : follow stage barrier schedule preconditioner (k - 1) [] w t >>=
        proceed (pursue admission stage barrier preconditioner) path j =
      follow stage barrier schedule preconditioner (k - 1) [] w t >>=
        resume (follow stage barrier schedule preconditioner (j - 1) []) schedule :=
      Run.Keeps.bind_congr (follow_scale _ _ _ ⟨0, ht⟩) fun first hfirst =>
        proceed_pursue hadmission hj hschedule hscales hfirst
    rw [hbudget, hfirst, follow_of_schedule schedule.initialScale, hrest]
    exact follow_compares_resume hstage hbarrier hpreconditioner (j - 1) (k - 1) [] w t

/-- A path in one part and in two parts has the same outcome. -/
theorem pursue_settles_resumed (admission : Except Fault Unit) (start : Datum α)
    (hstage : Stage.Compare L (fun _ => True) stage stage)
    (hbarrier : barrier.Compare L (fun _ => True) barrier)
    (hpreconditioner : ∀ p ∈ preconditioner, p.CompareBy L (fun _ => True) p)
    (hk : 1 ≤ k) (hj : 1 ≤ j) (hscales : (path.within k).ScalesPositive) :
    ∃ e,
      (pursue admission stage barrier preconditioner start (path.within (k + j))).Settles I on e ∧
      (resumed (pursue admission stage barrier preconditioner) start path k j).Settles I on e := by
  have hself : (Comparison.apart I on).Compares Eq
      (pursue admission stage barrier preconditioner start (path.within (k + j)))
      (pursue admission stage barrier preconditioner start (path.within (k + j))) := by
    refine .check fun schedule _ => .check fun _ _ => ?_
    exact (followFrom_compares hstage hbarrier (Option.rel_self hpreconditioner) schedule
      fun _ _ => trivial).mono fun _ _ h => h.1
  obtain ⟨e, he⟩ := Run.exists_settles hself
  exact ⟨e, he, he.of_compares (pursue_compares_resumed admission start hstage hbarrier
    hpreconditioner hk hj hscales)⟩

end

end CentralPath

/-! ## Functions that always give the same answers -/

section

open CentralPath

variable {α σ : Type} [Numeral α] {I : Invariant α σ} {on : Logging.Source → Bool}

/-- The functions of a family always give the same answers. -/
structure Family.Determined (I : Invariant α σ) (on : Logging.Source → Bool) (f : Family α σ) :
    Prop where
  value : ∀ i, Run.Determined I on (f.value i)
  gradient : ∀ i, Run.Determined I on (f.gradient i)
  hessian : ∀ hessian ∈ f.hessian, ∀ i, (hessian i).Determined I on

theorem Family.Determined.compare {f : Family α σ} (h : f.Determined I on) :
    Family.Compare (Operator.Alike.likeness (.apart I on)) (fun _ => True) f f where
  count := rfl
  value i x := (h.value i).compareOn x trivial
  gradient i := (h.gradient i).compareOn.field
  hessian := Option.rel_self h.hessian

/-- The functions of a barrier in closed form always give the same answers. -/
structure ClosedForm.Determined (I : Invariant α σ) (on : Logging.Source → Bool)
    (b : ClosedForm α σ) : Prop where
  value : Run.Determined I on b.value
  gradient : Run.Determined I on b.gradient
  multipliers : ∀ t, Run.Determined I on (b.multipliers t)
  outside : Run.Determined I on b.outside
  hessian : ∀ hessian ∈ b.hessian, hessian.Determined I on

theorem ClosedForm.Determined.compare {b : ClosedForm α σ} (h : b.Determined I on) :
    ClosedForm.Compare (Operator.Alike.likeness (.apart I on)) (fun _ => True) b b where
  value := h.value.compareOn
  gradient := h.gradient.compareOn.field
  multipliers t := (h.multipliers t).compareOn
  outside := h.outside.region
  hessian := Option.rel_self h.hessian

/-- The functions of a barrier always give the same answers. -/
def Barrier.Determined (I : Invariant α σ) (on : Logging.Source → Bool) : Barrier α σ → Prop
  | family f => f.Determined I on
  | closedForm b => b.Determined I on

theorem Barrier.Determined.compare {barrier : Barrier α σ} (h : barrier.Determined I on) :
    Barrier.Compare (Operator.Alike.likeness (.apart I on)) (fun _ => True) barrier barrier := by
  cases barrier with
  | family f =>
    have hf : f.Compare (Operator.Alike.likeness (.apart I on)) (fun _ => True) f :=
      Family.Determined.compare h
    refine Family.barrier_compare hf fun x y _ _ => ?_
    exact (Family.violatedFrom_compares hf (Vec.ofArray y) _ _).mono fun _ _ hout =>
      ⟨hout, fun _ => trivial⟩
  | closedForm b => exact ClosedForm.barrier_compare (ClosedForm.Determined.compare h)

/-- Whenever a preconditioner is asked about a scale, the tensors that it answers with are alike. -/
def CentralPath.Preconditioner.Determined (I : Invariant α σ) (on : Logging.Source → Bool)
    (p : Preconditioner α σ) : Prop :=
  p.Compare (.apart I on) (fun _ => True) p

variable {value : Option (ScalarField α σ)} {gradient : VectorField α σ} {hessian : Tensor α σ}
  {start : Datum α} {barrier : Barrier α σ} {path : CentralPath.Options α}
  {preconditioner : Option (Preconditioner α σ)} {k j : Nat}

theorem minimizeConjugateConstrained_eq_pursue (options : Conjugate.Options α σ) :
    minimizeConjugateConstrained value gradient start barrier path options preconditioner =
      pursue (.ok ()) (conjugateStage value gradient barrier options) barrier preconditioner start
        path :=
  rfl

/-- A path of truncated Newton steps is admitted if the barrier has second derivatives. -/
theorem minimizeNewtonConstrained_eq_pursue (options : Newton.Options α σ) :
    minimizeNewtonConstrained gradient hessian start barrier path options preconditioner =
      pursue (if barrier.hasHessian then .ok () else .error .hessianNeeded)
        (newtonStage gradient hessian barrier options) barrier preconditioner start path := by
  unfold minimizeNewtonConstrained pursue
  cases barrier.hasHessian <;> rfl

/-- **Stopping and resuming.** For functions that always give the same answers, a minimization by
truncated Newton steps with a criterion that looks at nothing but the gradient may be stopped after
any number of iterations and started again where it ended: from whatever session, both ways have one
outcome. So have both ways of constrained minimization, where the second part starts at the next
scale and the certificates of both parts are joined. -/
theorem stopped_and_resumed (start : Datum α) (path : CentralPath.Options α)
    (value : Option (ScalarField α σ)) (outside : Region α σ) (smoother : Option (Tensor α σ))
    (preconditioner : Option (Preconditioner α σ)) (conjugate : Conjugate.Options α σ)
    (newton : Newton.Options α σ) (hvalue : ∀ f ∈ value, Run.Determined I on f)
    (hgradient : Run.Determined I on gradient)
    (hhessian : hessian.Determined I on) (houtside : Run.Determined I on outside)
    (hsmoother : ∀ tensor ∈ smoother, tensor.Determined I on)
    (hbarrier : barrier.Determined I on)
    (hpreconditioner : ∀ p ∈ preconditioner, p.Determined I on)
    (hconjugate : conjugate.stop.Determined I on) (hnewton : newton.stop.Determined I on) :
    (newton.stop.OnGradient I on → ∀ k j, ∃ e,
      (minimizeNewton gradient hessian start outside (newton.within (k + j)) smoother).Settles
        I on e ∧
      Run.Settles I on (do
        let x ← minimizeNewton gradient hessian start outside (newton.within k) smoother
        minimizeNewton gradient hessian (.vector x) outside (newton.within j) smoother) e) ∧
    ∀ k j, 1 ≤ k → 1 ≤ j → (path.within k).ScalesPositive →
      (∃ e,
        (minimizeConjugateConstrained value gradient start barrier (path.within (k + j)) conjugate
          preconditioner).Settles I on e ∧
        (resumed (fun start path => minimizeConjugateConstrained value gradient start barrier path
          conjugate preconditioner) start path k j).Settles I on e) ∧
      ∃ e,
        (minimizeNewtonConstrained gradient hessian start barrier (path.within (k + j)) newton
          preconditioner).Settles I on e ∧
        (resumed (fun start path => minimizeNewtonConstrained gradient hessian start barrier path
          newton preconditioner) start path k j).Settles I on e := by
  refine ⟨fun hstop k j => ?_, fun k j hk hj hscales => ⟨?_, ?_⟩⟩
  · exact minimizeNewton_resumed hgradient hhessian houtside hsmoother hstop k j
  · have hvalues : Option.Rel (Run.CompareOn (.apart I on) fun _ => True) value value :=
      Option.rel_self fun f hf => (hvalue f hf).compareOn
    have hstage := conjugateStage_compare hvalues hgradient.compareOn.field hbarrier.compare.near
      hconjugate.compare
    simp only [minimizeConjugateConstrained_eq_pursue]
    exact pursue_settles_resumed _ start hstage hbarrier.compare hpreconditioner hk hj hscales
  · have hstage := newtonStage_compare hgradient.compareOn.field hhessian hbarrier.compare.near
      hnewton.compare
    simp only [minimizeNewtonConstrained_eq_pursue]
    exact pursue_settles_resumed _ start hstage hbarrier.compare hpreconditioner hk hj hscales

/-- Over the reals all scales are positive. -/
theorem CentralPath.Options.scalesPositive [RealText] (path : CentralPath.Options ℝ) :
    path.ScalesPositive := by
  intro schedule h i t ht
  have hpos : 0 < t := by
    induction i generalizing t with
    | zero => exact Options.initialScale_pos h ht
    | succ i ih =>
      obtain ⟨scale, hscale, ht⟩ := Fault.bind_eq_ok ht
      obtain ⟨factor, hfactor, ht⟩ := Fault.bind_eq_ok ht
      cases ht
      exact Options.scale_pos h (ih scale hscale) hfactor
  simpa [Number.admits, Number.isAtMost, Scalar.ofNat] using hpos

/-- Half the square of a number, minimized freely and below one, stopped after one step or stage. -/
theorem stopped_and_resumed_halfLine :
    letI := RealText.mute
    let hessian : Tensor ℝ Unit := .constant (.operator .identity)
    let newton : Newton.Options ℝ Unit := {}
    let path : CentralPath.Options ℝ := {}
    let minimize start path :=
      minimizeConjugateConstrained none identityField start (.family halfLine) path unitNorm none
    (∃ e s₁ s₂,
      (minimizeNewton identityField hessian (.vector #[-4]) Region.everywhere (newton.within 3)
        none).run (Session.initial ()) = Run.ending e s₁ ∧
      EStateM.run (do
        let x ← minimizeNewton identityField hessian (.vector #[-4]) Region.everywhere
          (newton.within 1) none
        minimizeNewton identityField hessian (.vector x) Region.everywhere (newton.within 2) none)
        (Session.initial ()) = Run.ending e s₂) ∧
    ∃ e s₁ s₂,
      (minimize (.vector #[-4]) (path.within 3)).run (Session.initial ()) = Run.ending e s₁ ∧
      (resumed minimize (.vector #[-4]) path 1 2).run (Session.initial ()) = Run.ending e s₂ := by
  let _ := RealText.mute
  let session : Session ℝ Unit := Session.initial ()
  have hmeets : session.Meets Invariant.none session.listens := ⟨trivial, rfl⟩
  have hidentity : Run.Determined Invariant.none session.listens identityField :=
    fun x => ⟨.ok (.vector x), fun s hs => ⟨s, hs, rfl⟩⟩
  have hhessian : (Tensor.constant (.operator .identity) : Tensor ℝ Unit).Determined Invariant.none
      session.listens :=
    fun x _ => .pure ⟨rfl, fun v => .pure rfl⟩
  have houtside : Run.Determined Invariant.none session.listens
      (Region.everywhere : Region ℝ Unit) :=
    fun _ => ⟨.ok false, fun s hs => ⟨s, hs, rfl⟩⟩
  have hbarrier : (Barrier.family halfLine).Determined Invariant.none session.listens :=
    { value := fun _ x => ⟨.ok (x.getD 0 0 - 1), fun s hs => ⟨s, hs, rfl⟩⟩
      gradient := fun _ _ => ⟨.ok (.vector #[1]), fun s hs => ⟨s, hs, rfl⟩⟩
      hessian := nofun }
  have hgradient (tolerance : ℝ) : (CriterionLike.criterion (.gradientNorm tolerance) :
      CriterionLike ℝ Unit).OnGradient Invariant.none session.listens := by
    rintro _ ⟨⟩ n g
    exact ⟨.ok (decide (Vec.norm g < tolerance)), fun _ s hs => ⟨s, hs, rfl⟩⟩
  have hstop (tolerance : ℝ) : (CriterionLike.criterion (.gradientNorm tolerance) :
      CriterionLike ℝ Unit).Determined Invariant.none session.listens := by
    intro criterion hcriterion n g k
    obtain ⟨e, he⟩ := hgradient tolerance criterion hcriterion g
    exact ⟨e, he k⟩
  obtain ⟨hfree, hconstrained⟩ := stopped_and_resumed (.vector #[-4]) {} none Region.everywhere none
    none unitNorm {} nofun hidentity hhessian houtside nofun hbarrier nofun (hstop 1) (hstop 1e-8)
  obtain ⟨e, hlong, hshort⟩ := hfree (hgradient 1e-8) 1 2
  obtain ⟨⟨e', hlong', hshort'⟩, -⟩ := hconstrained 1 2 (by decide) (by decide)
    (Options.scalesPositive _)
  obtain ⟨s₁, -, h₁⟩ := hlong session hmeets
  obtain ⟨s₂, -, h₂⟩ := hshort session hmeets
  obtain ⟨s₃, -, h₃⟩ := hlong' session hmeets
  obtain ⟨s₄, -, h₄⟩ := hshort' session hmeets
  exact ⟨⟨e, s₁, s₂, h₁, h₂⟩, e', s₃, s₄, h₃, h₄⟩

end

end Descent
