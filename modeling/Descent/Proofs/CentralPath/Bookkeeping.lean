import Descent.Proofs.CentralPath.Schedule
import Descent.Proofs.CentralPath.Inside
import Descent.Proofs.Minimize.Inner

/-!
# What certificates say about their path

A path passes its stages one after the other, each from where the one before ended. Its certificate
is an account of these stages: how many there were, the gap after each, and where the last ended.

* `CentralPath.Passed`: the stages that a path has passed, as a record;
* `CentralPath.Certificate.Accounts`: what a certificate says about them;
* `CentralPath.Passed.accounts`: the step, for a path that ends with a stage;
  `CentralPath.follow_accounts`: the path;
* `CentralPath.Certificate.Accounts.stages_eq`: over the reals the schedule and the number of
  constraints decide how many stages there are;
* `certificate_accounts`: both constrained minimizers.
-/

namespace Descent

namespace CentralPath

section

variable {α σ : Type} [Numeral α] {stage : Stage α σ} {barrier : Barrier α σ}
  {schedule : Schedule α} {preconditioner : Option (Preconditioner α σ)} {x y : Array α}
  {s s₁ s₂ : Session α σ} {stages : List (Arrival α)} {a : Arrival α} {c : Certificate α} {t : α}

/-- The stages that a path has passed from a point and a session on, in order, with the point and
the session where the last one ended. Each starts where the one before ended, at the scale of its
index. -/
inductive Passed (stage : Stage α σ) (barrier : Barrier α σ) (schedule : Schedule α)
    (preconditioner : Option (Preconditioner α σ)) (x : Array α) (s : Session α σ) :
    List (Arrival α) → Array α → Session α σ → Prop
  | start : Passed stage barrier schedule preconditioner x s [] x s
  | next {stages : List (Arrival α)} {y : Array α} {t : α} {a : Arrival α} {s₁ s₂ : Session α σ}
      (passed : Passed stage barrier schedule preconditioner x s stages y s₁)
      (scale : schedule.scaleOf stages.length = .ok t)
      (arrived : (arrive stage barrier preconditioner stages.length y t).run s₁ = .ok a s₂) :
      Passed stage barrier schedule preconditioner x s (stages ++ [a]) a.point s₂

/-- The stage with an index ended as it should: at the scale of its index, at a point that the stage
returned, with the multipliers that the barrier returned there and the gap that belongs to them. -/
def Arrival.AtIndex (stage : Stage α σ) (barrier : Barrier α σ) (schedule : Schedule α)
    (index : Nat) (a : Arrival α) : Prop :=
  schedule.scaleOf index = .ok a.scale ∧ a.At Invariant.none (fun _ => True) stage barrier

/-- Where the last stage of a path ended. -/
def Certificate.arrival (c : Certificate α) : Arrival α :=
  ⟨c.optimum, c.multipliers, c.scale, c.dualityGap⟩

/-- A certificate is an account of the stages of a path. -/
structure Certificate.Accounts (stage : Stage α σ) (barrier : Barrier α σ) (schedule : Schedule α)
    (stages : List (Arrival α)) (c : Certificate α) : Prop where
  entry : ∀ k (h : k < stages.length), stages[k].AtIndex stage barrier schedule k
  /-- Everything about the end of the path is taken from its last stage. -/
  last : stages.getLast? = some c.arrival
  arrival : c.arrival.AtIndex stage barrier schedule (c.stages - 1)
  count : c.stages = stages.length
  history : c.gapHistory = stages.map Arrival.gap
  optimal : c.status = .optimal ↔ c.dualityGap < schedule.dualityGap.ceiling
  earlier : ∀ a ∈ stages.dropLast, ¬a.gap < schedule.dualityGap.ceiling
  positive : 1 ≤ c.stages
  within : c.stages ≤ schedule.budget
  exhausted : c.status = .stageBudget → c.stages = schedule.budget

theorem arrive_atIndex {done index : Nat} (hscale : schedule.scaleOf index = .ok t)
    (harrive : (arrive stage barrier preconditioner done y t).run s₁ = .ok a s₂) :
    a.AtIndex stage barrier schedule index := by
  have hstage : stage.Inside Invariant.none fun _ => True :=
    fun x t smoother _ _ => Run.keeps_none (stage x t smoother)
  have hkeeps : (arrive stage barrier preconditioner done y t).Keeps Invariant.none fun a =>
      a.scale = t ∧ a.At Invariant.none (fun _ => True) stage barrier :=
    arrive_keeps hstage (fun _ _ _ => Run.keeps_none _)
      (fun p _ t => (Run.keeps_none (p t)).mono fun tensor _ => tensor.keptOn_none fun _ => True)
      done trivial t
  obtain ⟨-, ht, hat⟩ := hkeeps.of_ok trivial harrive
  exact ⟨ht.symm ▸ hscale, hat⟩

/-- Every stage of a path ended as it should. -/
theorem Passed.entry (h : Passed stage barrier schedule preconditioner x s stages y s₁) :
    ∀ k (hk : k < stages.length), stages[k].AtIndex stage barrier schedule k := by
  induction h with
  | start => exact fun k hk => absurd hk (Nat.not_lt_zero k)
  | @next stages y t a s₁ s₂ passed scale arrived ih =>
    intro k hk
    rw [List.length_append, List.length_singleton] at hk
    obtain hlt | rfl : k < stages.length ∨ k = stages.length := by omega
    · rw [List.getElem_append_left hlt]
      exact ih k hlt
    · rw [List.getElem_concat_length]
      · exact arrive_atIndex scale arrived
      · rfl

/-- A path that ends with a stage accounts for it and for the stages before it. -/
theorem Passed.accounts (h : Passed stage barrier schedule preconditioner x s stages y s₁)
    (hunmet : ∀ a ∈ stages, ¬a.gap < schedule.dualityGap.ceiling)
    (hscale : schedule.scaleOf stages.length = .ok t)
    (harrive : (arrive stage barrier preconditioner stages.length y t).run s₁ = .ok a s₂)
    {status : Status} (hoptimal : status = .optimal ↔ a.gap < schedule.dualityGap.ceiling)
    (hwithin : stages.length + 1 ≤ schedule.budget)
    (hexhausted : status = .stageBudget → stages.length + 1 = schedule.budget) :
    ∃ all s₃, Passed stage barrier schedule preconditioner x s all a.point s₃ ∧
      (a.certificate status (a.gap :: (stages.map Arrival.gap).reverse)).Accounts stage barrier
        schedule all := by
  have hcount : (a.certificate status (a.gap :: (stages.map Arrival.gap).reverse)).stages =
      stages.length + 1 := by simp [Arrival.certificate]
  refine ⟨stages ++ [a], s₂, h.next hscale harrive, ?_⟩
  refine ⟨(h.next hscale harrive).entry, ?_, ?_, ?_, ?_, hoptimal, ?_, ?_, ?_, fun hstatus => ?_⟩
  · exact List.getLast?_concat
  · rw [hcount]
    exact arrive_atIndex hscale harrive
  · rwa [List.length_append, List.length_singleton]
  · simp [Arrival.certificate]
  · rwa [List.dropLast_concat]
  · omega
  · omega
  · exact hcount.trans (hexhausted hstatus)

/-- **A path accounts for all its stages.** -/
theorem follow_accounts : ∀ left stages y t s₁ s₂,
    Passed stage barrier schedule preconditioner x s stages y s₁ →
    (∀ a ∈ stages, ¬a.gap < schedule.dualityGap.ceiling) →
    schedule.scaleOf stages.length = .ok t → stages.length + left + 1 = schedule.budget →
    (follow stage barrier schedule preconditioner left (stages.map Arrival.gap).reverse y t).run
      s₁ = .ok c s₂ →
    ∃ all s₃, Passed stage barrier schedule preconditioner x s all c.optimum s₃ ∧
      c.Accounts stage barrier schedule all := by
  -- on the stages left; the gaps that the path carries along are those of the stages passed
  intro left
  induction left with
  | zero =>
    intro stages y t s₁ s₂ hpassed hunmet hscale hbudget hrun
    obtain ⟨a, s₃, harrive, hrun⟩ := Run.bind_eq_ok hrun
    rw [List.length_reverse, List.length_map] at harrive
    split at hrun
    · cases hrun
      exact hpassed.accounts hunmet hscale harrive ⟨fun _ => ‹_›, fun _ => rfl⟩ hbudget.le nofun
    · obtain ⟨_, _, -, hrun⟩ := Run.bind_eq_ok hrun
      cases hrun
      exact hpassed.accounts hunmet hscale harrive ⟨nofun, fun hmet => absurd hmet ‹_›⟩ hbudget.le
        fun _ => hbudget
  | succ left ih =>
    intro stages y t s₁ s₂ hpassed hunmet hscale hbudget hrun
    obtain ⟨a, s₃, harrive, hrun⟩ := Run.bind_eq_ok hrun
    rw [List.length_reverse, List.length_map] at harrive
    split at hrun
    · cases hrun
      exact hpassed.accounts hunmet hscale harrive ⟨fun _ => ‹_›, fun _ => rfl⟩ (by omega) nofun
    · obtain ⟨factor, hfactor, hrun⟩ := Run.check_eq_ok hrun
      refine ih (stages ++ [a]) a.point (t * factor) s₃ s₂ (hpassed.next hscale harrive) ?_ ?_ ?_ ?_
      · intro b hb
        rcases List.mem_append.1 hb with hb | hb
        · exact hunmet b hb
        · rw [List.mem_singleton.1 hb]
          assumption
      · rw [List.length_append, List.length_singleton]
        exact Schedule.scaleOf_succ hscale hfactor
      · rw [List.length_append, List.length_singleton]
        omega
      · rwa [List.map_append, List.reverse_append]

theorem followFrom_accounts {start : Datum α}
    (hrun : (followFrom stage barrier schedule preconditioner start).run s = .ok c s₁) :
    ∃ w stages s₂, start.toVector "w0" = .ok w ∧
      Passed stage barrier schedule preconditioner w s stages c.optimum s₂ ∧
      c.Accounts stage barrier schedule stages := by
  obtain ⟨w, hw, hrun⟩ := Run.check_eq_ok hrun
  obtain ⟨t, ht, hrun⟩ := Run.check_eq_ok hrun
  obtain ⟨stages, s₂, hpassed, haccounts⟩ := follow_accounts _ [] w t s s₁ .start
    (fun _ hmem => absurd hmem List.not_mem_nil) ht (by simp [Schedule.budget]) hrun
  exact ⟨w, stages, s₂, hw, hpassed, haccounts⟩

/-- A stage arrives if its minimization and the multipliers return. -/
theorem arrive_ensures {I : Invariant α σ}
    (hstage : ∀ x t smoother, (stage x t smoother).Ensures I fun _ => True)
    (hmultipliers : ∀ t (x : Array α),
      (barrier.multipliers t (Vec.ofArray x)).Ensures I fun _ => True)
    (hpreconditioner : ∀ t, (stagePreconditioner preconditioner t).Ensures I fun _ => True)
    (done : Nat) (x : Array α) (t : α) :
    (arrive stage barrier preconditioner done x t).Ensures I fun _ => True := by
  refine .bind (hpreconditioner t) fun smoother _ => ?_
  refine .bind (hstage x t smoother) fun y _ => ?_
  refine .bind (hmultipliers t y) fun multipliers _ => ?_
  exact .bind (.of_yields .debug rfl) fun _ _ => .pure trivial

/-- **A path returns if its stages do.** -/
theorem follow_ensures {I : Invariant α σ} {factor : α}
    (harrive : ∀ done x t, (arrive stage barrier preconditioner done x t).Ensures I fun _ => True)
    (hfactor : schedule.scaleFactor.toScalar = .ok factor) :
    ∀ left gaps x t,
      (follow stage barrier schedule preconditioner left gaps x t).Ensures I fun _ => True := by
  intro left
  induction left with
  | zero =>
    intro gaps x t
    refine .bind (harrive _ x t) fun a _ => ?_
    split
    · exact .pure trivial
    · exact .bind (.of_yields .debug rfl) fun _ _ => .pure trivial
  | succ left ih =>
    intro gaps x t
    refine .bind (harrive _ x t) fun a _ => ?_
    split
    · exact .pure trivial
    · exact .bind (.of_yields (.ofExcept hfactor) rfl) fun factor _ => ih _ _ _

/-- A constrained minimization of a start from a session returned a certificate; how it minimized
its stages. -/
inductive Returned (barrier : Barrier α σ) (path : Options α) (start : Datum α)
    (preconditioner : Option (Preconditioner α σ)) (s : Session α σ) :
    Stage α σ → Certificate α → Prop
  | conjugate {value : Option (ScalarField α σ)} {gradient : VectorField α σ}
      {options : Conjugate.Options α σ} {c : Certificate α} {s' : Session α σ}
      (returned : (minimizeConjugateConstrained value gradient start barrier path options
        preconditioner).run s = .ok c s') :
      Returned barrier path start preconditioner s (conjugateStage value gradient barrier options) c
  | newton {gradient : VectorField α σ} {hessian : Tensor α σ} {options : Newton.Options α σ}
      {c : Certificate α} {s' : Session α σ}
      (returned : (minimizeNewtonConstrained gradient hessian start barrier path options
        preconditioner).run s = .ok c s') :
      Returned barrier path start preconditioner s (newtonStage gradient hessian barrier options) c

theorem Returned.accounts {path : Options α} {start : Datum α}
    (h : Returned barrier path start preconditioner s stage c) :
    ∃ schedule w stages s', path.schedule = .ok schedule ∧ start.toVector "w0" = .ok w ∧
      Passed stage barrier schedule preconditioner w s stages c.optimum s' ∧
      c.Accounts stage barrier schedule stages := by
  cases h with
  | conjugate returned =>
    obtain ⟨schedule, hschedule, hrun⟩ := Run.check_eq_ok returned
    obtain ⟨w, stages, s', haccounts⟩ := followFrom_accounts hrun
    exact ⟨schedule, w, stages, s', hschedule, haccounts⟩
  | newton returned =>
    obtain ⟨schedule, hschedule, hrun⟩ := Run.check_eq_ok returned
    split at hrun
    · obtain ⟨_, _, hrefused, _⟩ := Run.bind_eq_ok hrun
      cases hrefused
    · obtain ⟨w, stages, s', haccounts⟩ := followFrom_accounts hrun
      exact ⟨schedule, w, stages, s', hschedule, haccounts⟩

end

/-! ## Exact scales and a fixed number of constraints -/

section

variable {σ : Type} [RealText] {stage : Stage ℝ σ} {f : Family ℝ σ} {path : Options ℝ}
  {schedule : Schedule ℝ} {stages : List (Arrival ℝ)} {c : Certificate ℝ} {t factor : ℝ}

/-- There are as many multipliers as constraints, so every gap is known in advance. -/
theorem Arrival.AtIndex.gap_eq {a : Arrival ℝ} {index : Nat}
    (h : a.AtIndex stage (.family f) schedule index)
    (ht : schedule.initialScale.toScalar = .ok t)
    (hfactor : schedule.scaleFactor.toScalar = .ok factor) :
    a.gap = f.count / (t * factor ^ index) := by
  obtain ⟨hscale, hat⟩ := h
  rw [Schedule.scaleOf_exact ht hfactor] at hscale
  obtain ⟨s, s', -, hmultipliers⟩ := hat.multipliers
  obtain ⟨values, s₁, -, hvalues⟩ := Run.bind_eq_ok hmultipliers
  have hsize : a.multipliers.size = f.count := by
    rw [← (EStateM.Result.ok.inj hvalues).1, Vector.size_toArray]
  rw [hat.gap, hsize, ← Except.ok.inj hscale]
  rfl

theorem Certificate.Accounts.history_decreasing (h : c.Accounts stage (.family f) schedule stages)
    (hschedule : path.schedule = .ok schedule) (ht : schedule.initialScale.toScalar = .ok t)
    (hfactor : schedule.scaleFactor.toScalar = .ok factor) (hcount : 0 < f.count) :
    c.gapHistory.Pairwise (· > ·) := by
  have hpos := Options.initialScale_pos hschedule ht
  have hone := Options.one_lt_scaleFactor hschedule hfactor
  rw [h.history, List.pairwise_map, List.pairwise_iff_getElem]
  intro i j hi hj hij
  rw [(h.entry i hi).gap_eq ht hfactor, (h.entry j hj).gap_eq ht hfactor]
  have hscale : t * factor ^ i < t * factor ^ j :=
    mul_lt_mul_of_pos_left (pow_lt_pow_right₀ hone hij) hpos
  exact div_lt_div_of_pos_left (Nat.cast_pos.2 hcount)
    (mul_pos hpos (pow_pos (one_pos.trans hone) i)) hscale

/-- **The schedule and the number of constraints decide how many stages there are.** -/
theorem Certificate.Accounts.stages_eq (h : c.Accounts stage (.family f) schedule stages)
    (ht : schedule.initialScale.toScalar = .ok t)
    (hfactor : schedule.scaleFactor.toScalar = .ok factor) {needed : Nat}
    (hneeded : IsLeast
      {k | 1 ≤ k ∧ f.count / (t * factor ^ (k - 1)) < schedule.dualityGap.ceiling} needed) :
    c.stages = min schedule.budget needed ∧ (c.status = .optimal ↔ needed ≤ schedule.budget) := by
  have hcount := h.count
  have hpositive := h.positive
  have hwithin := h.within
  -- no stage before the last one met the gap
  have hle : c.stages ≤ needed := by
    by_contra hlt
    have hearlier : needed - 1 < stages.dropLast.length := by
      rw [List.length_dropLast]
      have := hneeded.1.1
      omega
    refine h.earlier _ (List.getElem_mem hearlier) ?_
    rw [List.getElem_dropLast, (h.entry _ _).gap_eq ht hfactor]
    exact hneeded.1.2
  have hgap : c.dualityGap = f.count / (t * factor ^ (c.stages - 1)) :=
    h.arrival.gap_eq ht hfactor
  have hmet : c.status = .optimal ↔ needed = c.stages := by
    rw [h.optimal, hgap]
    exact ⟨fun hmet => le_antisymm (hneeded.2 ⟨hpositive, hmet⟩) hle, fun heq => heq ▸ hneeded.1.2⟩
  cases hstatus : c.status with
  | optimal =>
    have heq := hmet.1 hstatus
    exact ⟨by omega, fun _ => by omega, fun _ => rfl⟩
  | stageBudget =>
    have hfull := h.exhausted hstatus
    have hne : needed ≠ c.stages := fun heq => by simp [hmet.2 heq] at hstatus
    exact ⟨by omega, nofun, fun hle => absurd hle (by omega)⟩

end

end CentralPath

open CentralPath

/-- **A certificate is an account of its path.** Whatever a constrained minimization returns tells
how many stages there were, within their budget, the gap after each of them, and where the last one
ended, at its scale and with its multipliers; it is optimal exactly when its gap is below the one
asked for, no earlier gap was, and otherwise the budget is used up. Over the reals, with the
constraints of a family, the gaps decrease, and the schedule and the number of constraints decide
how many stages there are and whether the certificate is optimal. -/
theorem certificate_accounts :
    (∀ {α σ : Type} [Numeral α] {barrier : Barrier α σ} {path : CentralPath.Options α}
      {start : Datum α} {preconditioner : Option (Preconditioner α σ)} {s : Session α σ}
      {stage : Stage α σ} {c : Certificate α},
      Returned barrier path start preconditioner s stage c →
      ∃ schedule w stages s', path.schedule = .ok schedule ∧ start.toVector "w0" = .ok w ∧
        Passed stage barrier schedule preconditioner w s stages c.optimum s' ∧
        c.Accounts stage barrier schedule stages ∧
        ∀ count : Int, schedule.maxStages = .whole count → (schedule.budget : Int) = count) ∧
    (∀ {σ : Type} [RealText] (f : Family ℝ σ) {path : CentralPath.Options ℝ}
      {schedule : Schedule ℝ}, path.schedule = .ok schedule →
      ∃ t factor needed, schedule.initialScale.toScalar = .ok t ∧
        schedule.scaleFactor.toScalar = .ok factor ∧
        IsLeast {k : Nat | 1 ≤ k ∧ f.count / (t * factor ^ (k - 1)) < schedule.dualityGap.ceiling}
          needed ∧
        ∀ {start : Datum ℝ} {preconditioner : Option (Preconditioner ℝ σ)} {s : Session ℝ σ}
          {stage : Stage ℝ σ} {c : Certificate ℝ},
          Returned (.family f) path start preconditioner s stage c →
          c.stages = min schedule.budget needed ∧
          (c.status = .optimal ↔ needed ≤ schedule.budget) ∧
          (0 < f.count → c.gapHistory.Pairwise (· > ·))) := by
  constructor
  · intro α σ _ barrier path start preconditioner s stage c hreturned
    obtain ⟨schedule, w, stages, s', hschedule, hw, hpassed, haccounts⟩ := hreturned.accounts
    exact ⟨schedule, w, stages, s', hschedule, hw, hpassed, haccounts,
      fun count hcount => Options.budget_of_whole hschedule hcount⟩
  · intro σ _ f path schedule hschedule
    have ht := Number.toScalar_exact schedule.initialScale
    have hfactor := Number.toScalar_exact schedule.scaleFactor
    obtain ⟨needed, hneeded⟩ := Options.exists_isLeast hschedule f.count ht hfactor
    refine ⟨_, _, needed, ht, hfactor, hneeded, ?_⟩
    intro start preconditioner s stage c hreturned
    obtain ⟨schedule', -, stages, -, hschedule', -, -, haccounts⟩ := hreturned.accounts
    cases hschedule.symm.trans hschedule'
    obtain ⟨hstages, hoptimal⟩ := haccounts.stages_eq ht hfactor hneeded
    exact ⟨hstages, hoptimal, haccounts.history_decreasing hschedule ht hfactor⟩

/-! ## A path of three stages -/

section

variable [RealText]

/-- The points of norm at most one. -/
noncomputable def unitBall : Family ℝ Unit where
  count := 1
  value _ x := return Vec.dot (Vec.ofArray x) (Vec.ofArray x) - 1
  gradient _ x := return .vector (Vec.ofArray x + Vec.ofArray x).toArray
  hessian := none
  hessianDiagonal := none

/-- Stages of Newton steps that end where they start. -/
noncomputable def atRest : Newton.Options ℝ Unit where
  stop := .criterion (.iterations 0)

theorem unitBall_gradient_ensures {n : Nat} (x : Vec ℝ n) :
    (unitBall.barrierGradient x).Ensures Invariant.none fun _ => True := by
  refine .bind (R := fun _ => True) ?_ fun slack _ => .bind (R := fun _ => True) ?_ fun rows _ =>
    .pure trivial
  · exact .bind (.ofFnM (Q := fun _ _ => True) fun i => .pure trivial) fun values _ => .pure trivial
  · refine (Run.Ensures.ofFnM (Q := fun _ _ => True) fun i => ?_).mono fun _ _ => trivial
    exact .bind (.pure rfl) fun d hd =>
      hd ▸ .of_yields (.ofExcept (Datum.toVec_vector _ (x + x))) trivial

/-- The stages of such steps return. -/
theorem atRest_ensures (x : Array ℝ) (t : ℝ) (smoother : Option (Tensor ℝ Unit)) :
    (newtonStage (fun x => return .vector x) (.constant (.operator .identity)) (.family unitBall)
      atRest x t smoother).Ensures Invariant.none fun _ => True := by
  have hgradient : ((stageGradient (fun x => return .vector x) (.family unitBall) t).valueAt
      "gradient" (Vec.ofArray x)).Ensures Invariant.none fun _ => True := by
    refine .bind (R := fun d => ∃ v : Vec ℝ x.size, d = .vector v.toArray) ?_ fun d ⟨v, hd⟩ =>
      hd ▸ .of_yields (.ofExcept (Datum.toVec_vector _ v)) trivial
    refine .bind (R := fun _ => True) ?_ fun a _ => ?_
    · exact .bind (.pure rfl) fun d hd =>
        hd ▸ .of_yields (.ofExcept (Datum.toVec_vector _ (Vec.ofArray x))) trivial
    · exact .bind (unitBall_gradient_ensures _) fun b _ => .pure ⟨_, rfl⟩
  have hread := Newton.Task.read_of_settings (σ := Unit) (Newton.settings_default (.iterations 0))
    (stageGradient (fun x => return .vector x) (.family unitBall) t)
    (stageHessian (.constant (.operator .identity)) (.family unitBall) t)
    (CentralPath.outside (.family unitBall)) smoother x
  refine .bind (.of_yields (.ofExcept hread) rfl) fun task htask => ?_
  subst htask
  refine .bind (R := fun _ => True) (.bind hgradient fun g _ => ?_) fun report _ => ?_
  · exact .of_yields (.bind .pure .pure) trivial
  · exact .bind (.of_yields .debug rfl) fun _ _ => .pure trivial

end

/-- With one constraint and the scales `1`, `10` and `100`, the third stage is the first whose gap
is below a twentieth. -/
theorem certificate_accounts_unitBall :
    letI := RealText.mute
    (minimizeNewtonConstrained (fun x => return .vector x) (.constant (.operator .identity))
      (.vector #[0]) (.family unitBall) { dualityGap := .number (.real 0.05) } atRest none).Ensures
        Invariant.none fun c => c.stages = 3 ∧ c.status = .optimal ∧ c.gapHistory.length = 3 ∧
          c.gapHistory.Pairwise (· > ·) := by
  let _ := RealText.mute
  let path : CentralPath.Options ℝ := { dualityGap := .number (.real 0.05) }
  have hgap : (Number.real (0.05 : ℝ)).admits .positive = true := by
    norm_num [Number.admits, Number.isAtMost, Scalar.ofNat]
  have hinitial : (Number.real (1.0 : ℝ)).admits .positive = true := by
    norm_num [Number.admits, Number.isAtMost, Scalar.ofNat]
  have hgrowth : (Number.real (10.0 : ℝ)).admits .aboveOne = true := by
    norm_num [Number.admits, Number.isAtMost, Scalar.ofNat]
  have hschedule : path.schedule = .ok ⟨.real 0.05, .real 1.0, .real 10.0, .whole 100⟩ := by
    simp only [path, CentralPath.Options.schedule, Datum.insist_of_admits hgap,
      Datum.insist_of_admits hinitial, Datum.insist_of_admits hgrowth]
    rfl
  have hreturns : (minimizeNewtonConstrained (fun x => return .vector x)
      (.constant (.operator .identity)) (.vector #[0]) (.family unitBall) path atRest none).Ensures
        Invariant.none fun _ => True := by
    refine .bind (.of_yields (.ofExcept hschedule) rfl) fun schedule hset => ?_
    subst hset
    refine .bind (.pure rfl) fun w _ => .bind (.pure rfl) fun t _ => ?_
    refine follow_ensures (arrive_ensures atRest_ensures (fun t x => ?_) fun t => .pure trivial) rfl
      _ _ _ _
    exact .bind (.ofFnM (Q := fun _ _ => True) fun i => .pure trivial) fun _ _ => .pure trivial
  obtain ⟨t, factor, needed, ht, hfactor, hneeded, hdecides⟩ :=
    certificate_accounts.2 unitBall hschedule
  cases ht
  cases hfactor
  have hthree : needed = 3 := by
    refine hneeded.unique ⟨⟨by omega, ?_⟩, ?_⟩
    · norm_num [unitBall, Number.ceiling]
    · rintro k ⟨hk, hmet⟩
      by_contra hlt
      obtain rfl | rfl : k = 1 ∨ k = 2 := by omega
      all_goals norm_num [unitBall, Number.ceiling] at hmet
  refine (hreturns.and_keeps (Run.keeps_none _).returned).mono ?_
  rintro c ⟨-, -, s, s', -, hrun⟩
  obtain ⟨hstages, hoptimal, hdecreases⟩ := hdecides (.newton hrun)
  rw [hthree] at hstages hoptimal
  obtain ⟨schedule, -, stages, -, -, -, -, haccounts, -⟩ := certificate_accounts.1 (.newton hrun)
  have hlength : c.gapHistory.length = c.stages := by
    rw [haccounts.history, haccounts.count, List.length_map]
  exact ⟨hstages, hoptimal.2 (by decide), hlength.trans hstages, hdecreases Nat.one_pos⟩

end Descent
