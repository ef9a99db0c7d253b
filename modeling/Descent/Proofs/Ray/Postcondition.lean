import Descent.Proofs.Ray.Furthest
import Descent.Proofs.Ray.Work

/-!
# What a search returns

What a search returns is read off the answers of its two functions: how many gradients there were,
and at which length the slope was small, or not positive.

* `Ray.Answering`: functions whose answers are known one after another, whatever these are;
* `Ray.Probes`: the answers in a search, with the slopes that they give;
* `Ray.Searches`: what is known of the length that a search returns;
  `Ray.searchArrays_answers`, and `Ray.Searches.furthest` over the reals;
* `Ray.Advances`: the steps of the minimizations, along a ray between vectors of one length;
  `Ray.search_advances`.
-/

namespace Descent.Ray

/-! ## Answers -/

/-- A question to one of the functions of a search, with the answer. -/
inductive Answer (α : Type) where
  | outside (point : Array α) (out : Bool)
  | gradient (point : Array α) (value : Datum α)

/-- Whether a gradient was asked for. -/
def Answer.isGradient {α : Type} : Answer α → Bool
  | outside _ _ => false
  | gradient _ _ => true

/-- Every answer of the functions of a search is added to the list that `I` is about; what the
answers are is left open. -/
structure Answering {α σ : Type} (I : List (Answer α) → Invariant α σ) (gradient : VectorField α σ)
    (outside : Region α σ) : Prop where
  gradient : ∀ point answers, Run.Triple (·.Has (I answers)) (gradient point)
    (fun value s => s.Has (I (answers ++ [.gradient point value]))) fun _ _ => True
  outside : ∀ point answers, Run.Triple (·.Has (I answers)) (outside point)
    (fun out s => s.Has (I (answers ++ [.outside point out]))) fun _ _ => True

/-- All functions agree with a list of answers that means nothing. -/
theorem Answering.unmarked {α σ : Type} (gradient : VectorField α σ) (outside : Region α σ) :
    Answering (fun _ => Invariant.none) gradient outside where
  gradient point _ := (Run.keeps_none (gradient point)).conseq (fun _ hs => hs)
    (fun _ _ _ => trivial) fun _ _ _ => trivial
  outside point _ := (Run.keeps_none (outside point)).conseq (fun _ hs => hs)
    (fun _ _ _ => trivial) fun _ _ _ => trivial

section

variable {α σ : Type} [Numeral α]

/-- The slope along `d` that a gradient at a point means. -/
def slopeOf (d point : Array α) (value : Datum α) : Except Fault α := do
  let g ← value.toVec "gradient" point.size
  product g.toArray d

/-- Questions about lengths on a ray, with the slopes computed so far, the last one first: a
gradient is asked for right after the same point was found inside, and never otherwise. -/
inductive Probes (x d : Array α) : List (Answer α) → List (Sample α) → Prop
  | nil : Probes x d [] []
  | outside {answers : List (Answer α)} {samples : List (Sample α)} {length : α} {point : Array α}
      (h : Probes x d answers samples) (hpoint : pointAt x d length = .ok point) :
      Probes x d (answers ++ [.outside point true]) samples
  | inside {answers : List (Answer α)} {samples : List (Sample α)} {length slope : α}
      {point : Array α} {value : Datum α} (h : Probes x d answers samples)
      (hpoint : pointAt x d length = .ok point) (hslope : slopeOf d point value = .ok slope) :
      Probes x d (answers ++ [.outside point false, .gradient point value])
        (⟨length, slope⟩ :: samples)

/-- The slope at the start, from the gradient that is known there or from the one asked for. -/
inductive Opens (x d : Array α) : Option (Array α) → List (Answer α) → α → Prop
  | known {g : Array α} {slope : α} (hslope : product g d = .ok slope) :
      Opens x d (some g) [] slope
  | asked {point : Array α} {value : Datum α} {slope : α} (hpoint : pointAt x d 0 = .ok point)
      (hslope : slopeOf d point value = .ok slope) : Opens x d none [.gradient point value] slope

/-- What is known of a search that returns, from the answers it was given: `slope` is the slope at
the start, and the samples are the slopes at the lengths that it tried. -/
structure Searches (x d : Array α) (options : Options α) (known : Option (Array α))
    (answers : List (Answer α)) (slope : α) (samples : List (Sample α)) (found : Found α) :
    Prop where
  valid : (options.rule 0).check = .ok ()
  answered : ∃ first trials, answers = first ++ trials ∧ Opens x d known first slope ∧
    Probes x d trials samples
  /-- The gradients are counted right. -/
  evaluations_eq : found.evaluations = answers.countP Answer.isGradient
  evaluations_le : ∀ rounds, (options.rounds.toNumber >>= Number.toCount) = .ok rounds →
    found.evaluations ≤ 2 * rounds + if known.isNone then 1 else 0
  /-- Where the function does not descend the length is zero. -/
  flat : ¬slope < 0 → found.length = 0
  ends : ∃ rounds, (options.rule rounds).Ends slope samples found.length

theorem Probes.countP_eq {x d : Array α} {answers : List (Answer α)} {samples : List (Sample α)}
    (h : Probes x d answers samples) : answers.countP Answer.isGradient = samples.length := by
  induction h with
  | nil => rfl
  | outside _ _ ih => simp [Answer.isGradient, ih]
  | inside _ _ _ ih => simp [Answer.isGradient, ih]

theorem Opens.countP_eq {x d : Array α} {known : Option (Array α)} {first : List (Answer α)}
    {slope : α} (h : Opens x d known first slope) :
    first.countP Answer.isGradient = if known.isNone then 1 else 0 := by
  cases h <;> rfl

variable {I : List (Answer α) → Invariant α σ} {gradient : VectorField α σ} {outside : Region α σ}

/-- A slope costs one answer. -/
theorem slope_answer (h : Answering I gradient outside) (x d : Array α) (length : α)
    (answers : List (Answer α)) :
    Run.Triple (·.Has (I answers)) ((stretched gradient outside x d).slope length)
      (fun slope s => ∃ point value, pointAt x d length = .ok point ∧
        slopeOf d point value = .ok slope ∧ s.Has (I (answers ++ [.gradient point value])))
      fun _ _ => True := by
  refine .check (fun point hpoint => ?_) fun _ _ _ => trivial
  have hgradient : Run.Triple (·.Has (I answers))
      (gradient.valueAt "gradient" (Vec.ofArray point))
      (fun g s => ∃ value : Datum α, value.toVec "gradient" point.size = .ok g ∧
        s.Has (I (answers ++ [.gradient point value]))) fun _ _ => True := by
    refine .bind (h.gradient point answers) fun value => ?_
    exact .ofExcept (fun g hg s hs => ⟨value, hg, hs⟩) fun _ _ _ _ => trivial
  refine .bind hgradient fun g => .ofExcept (fun slope hslope s hs => ?_) fun _ _ _ _ => trivial
  obtain ⟨value, hvalue, hs⟩ := hs
  refine ⟨point, value, hpoint, ?_, hs⟩
  rw [slopeOf, hvalue]
  exact hslope

/-- The answers lead from probes to probes. -/
theorem probed_of_answering (h : Answering I gradient outside) (x d : Array α)
    (first : List (Answer α)) :
    Probed (stretched gradient outside x d)
      (fun samples s => ∃ trials, s.Has (I (first ++ trials)) ∧ Probes x d trials samples)
      (fun samples length s => ∃ trials point, pointAt x d length = .ok point ∧
        s.Has (I (first ++ trials ++ [.outside point false])) ∧ Probes x d trials samples)
      fun _ _ => True := by
  refine ⟨fun samples length => ?_, fun samples length => ?_, fun _ _ _ _ => trivial⟩
  · refine .check (fun point hpoint => ?_) fun _ _ _ => trivial
    rintro s ⟨trials, hs, htrials⟩
    refine (h.outside point _).conseq (fun _ hs => hs) (fun out s hs => ?_) (fun _ _ he => he) s hs
    cases out with
    | true =>
      rw [List.append_assoc] at hs
      exact ⟨_, hs, htrials.outside hpoint⟩
    | false => exact ⟨trials, point, hpoint, hs, htrials⟩
  · rintro s ⟨trials, point, hpoint, hs, htrials⟩
    refine (slope_answer h x d length _).conseq (fun _ hs => hs) ?_ (fun _ _ he => he) s hs
    rintro slope s ⟨point', value, hpoint', hslope, hs⟩
    cases hpoint.symm.trans hpoint'
    simp only [List.append_assoc, List.singleton_append] at hs
    exact ⟨_, hs, htrials.inside hpoint hslope⟩

/-- The part of a search that follows the slope at the start. -/
theorem descend_answers (h : Answering I gradient outside) (x d : Array α) {options : Options α}
    (hvalid : (options.rule 0).check = .ok ()) {known : Option (Array α)}
    {first : List (Answer α)} {slope : α} (hfirst : Opens x d known first slope) :
    Run.Triple (·.Has (I first))
      (do
        if !decide (slope < 0) then return ⟨0, first.countP Answer.isGradient⟩
        else
          let rounds ← Run.ofExcept (options.rounds.toNumber >>= Number.toCount)
          descend (stretched gradient outside x d) (options.rule rounds) slope
            (first.countP Answer.isGradient))
      (fun found s => ∃ answers slope samples, s.Has (I answers) ∧
        Searches x d options known answers slope samples found) fun _ _ => True := by
  refine .ite (fun hflat => ?_) fun hneg => ?_
  · refine .pure fun s hs => ⟨first, slope, [], hs, ?_⟩
    exact
      { valid := hvalid
        answered := ⟨first, [], (List.append_nil _).symm, hfirst, .nil⟩
        evaluations_eq := rfl
        evaluations_le := fun rounds _ => hfirst.countP_eq.le.trans (Nat.le_add_left _ _)
        flat := fun _ => rfl
        ends := ⟨0, .exhausted .start⟩ }
  · refine .check (fun rounds hrounds => ?_) fun _ _ _ => trivial
    have hwork := (descend_counts (.unmarked (stretched gradient outside x d))
      (options.rule rounds) slope (first.countP Answer.isGradient)).bounds
    refine ((descend_triple (probed_of_answering h x d first) (options.rule rounds) slope
      (first.countP Answer.isGradient)).and_keeps hwork).conseq
      (fun s hs => ⟨[], by rwa [List.append_nil], .nil⟩) ?_ fun _ _ he => he
    rintro found s ⟨⟨samples, ⟨trials, hs, htrials⟩, ⟨hends, hcount⟩, hflat⟩, hle⟩
    refine ⟨first ++ trials, slope, samples, hs, ?_⟩
    exact
      { valid := hvalid
        answered := ⟨first, trials, rfl, hfirst, htrials⟩
        evaluations_eq := by
          rw [hcount, List.countP_append, htrials.countP_eq, Nat.add_comm]
        evaluations_le := fun k hk => by
          cases hrounds.symm.trans hk
          rw [hfirst.countP_eq, Nat.add_comm] at hle
          exact hle
        flat := fun h => (hflat h).2
        ends := ⟨rounds, hends⟩ }

/-- **What a search returns**, whatever its functions answer. -/
theorem searchArrays_answers (h : Answering I gradient outside) (x d : Array α)
    (options : Options α) (known : Option (Array α)) :
    Run.Triple (·.Has (I [])) (searchArrays gradient x d options outside known)
      (fun found s => ∃ answers slope samples, s.Has (I answers) ∧
        Searches x d options known answers slope samples found) fun _ _ => True := by
  refine .check (fun _ hvalid => ?_) fun _ _ _ => trivial
  cases known with
  | some g =>
    refine Run.Triple.check (fun slope hslope => ?_) fun _ _ _ => trivial
    exact descend_answers h x d hvalid (.known hslope)
  | none =>
    refine Run.Triple.bind (slope_answer h x d 0 []) fun slope => ?_
    rintro s ⟨point, value, hpoint, hslope, hs⟩
    exact descend_answers h x d hvalid (.asked hpoint hslope) s hs

/-- The length returned is zero, or the slope there is small or not positive. -/
theorem Searches.acceptable {x d : Array α} {options : Options α} {known : Option (Array α)}
    {answers : List (Answer α)} {slope : α} {samples : List (Sample α)} {found : Found α}
    (h : Searches x d options known answers slope samples found) :
    Acceptable (options.threshold * Scalar.abs slope) samples found.length := by
  obtain ⟨_, hends⟩ := h.ends
  exact hends.acceptable

end

/-- The length returned has a small slope, or it is the furthest one at which the function descends.
-/
theorem Searches.furthest [RealText] {x d : Array ℝ} {options : Options ℝ}
    {known : Option (Array ℝ)} {answers : List (Answer ℝ)} {slope : ℝ} {samples : List (Sample ℝ)}
    {found : Found ℝ} (h : Searches x d options known answers slope samples found) :
    0 ≤ found.length ∧ ((∀ a, ⟨found.length, a⟩ ∈ samples → ¬|a| ≤ options.threshold * |slope|) →
      IsGreatest (descents samples) found.length) := by
  obtain ⟨rounds, hends⟩ := h.ends
  have hvalid : (options.rule rounds).check = .ok () := h.valid
  obtain ⟨hnonneg, hfurthest⟩ := hends.furthest (Rule.valid_of_check hvalid)
  refine ⟨hnonneg, fun hlarge => hfurthest.resolve_left ?_⟩
  rintro ⟨a, hmem, hsmall⟩
  exact hlarge a hmem hsmall

/-! ## Steps along a ray -/

section

variable {α σ : Type} [Scalar α] {n : Nat}

/-- A step from `x`, where the gradient is `g`, to the point that a search along `d` has found:
`samples` are the slopes that the search has computed. -/
structure Advances (gradient : Vec α n → Run α σ (Vec α n)) (rule : Rule α) (x g d : Vec α n)
    (samples : List (Sample α)) (length : α) : Prop where
  valid : rule.check = .ok ()
  descends : Vec.dot g d < 0
  moves : (length == 0) = false
  ends : rule.Ends (Vec.dot g d) samples length
  computed : ∀ sample ∈ samples, ∃ g', (gradient (Vec.along x sample.length d)).Gives g' ∧
    sample.slope = Vec.dot g' d

omit [Scalar α] in
/-- All slopes of a search are slopes along its ray. -/
theorem probed_of_gives (ray : Ray α σ) :
    Probed ray (fun samples _ => ∀ sample ∈ samples, (ray.slope sample.length).Gives sample.slope)
      (fun samples _ _ => ∀ sample ∈ samples, (ray.slope sample.length).Gives sample.slope)
      fun _ _ => True := by
  refine ⟨fun samples length s hs => ?_, fun samples length s hs => ?_, fun _ _ _ _ => trivial⟩
  · cases (ray.outside length).run s with
    | ok out s' => cases out <;> exact hs
    | error fault s' => trivial
  · cases hslope : (ray.slope length).run s with
    | ok slope s' => exact List.forall_mem_cons.2 ⟨⟨s, s', hslope⟩, hs⟩
    | error fault s' => trivial

/-- **A search that leads away from where it started** leads along a direction of descent. -/
theorem search_advances (gradient : Vec α n → Run α σ (Vec α n)) (outside : Vec α n → Run α σ Bool)
    (rule : Rule α) (x g d : Vec α n) :
    (search (through gradient outside x d) rule (some (Vec.dot g d))).Keeps Invariant.none
      fun found => (found.length == 0) = false →
        ∃ samples, Advances gradient rule x g d samples found.length := by
  refine Run.Triple.check (fun _ hvalid => ?_) fun _ _ _ => trivial
  refine (descend_triple (probed_of_gives _) rule _ 0).conseq (fun s _ => nofun) ?_
    fun _ _ _ => trivial
  rintro found s ⟨samples, hsamples, ⟨hends, -⟩, hflat⟩
  refine ⟨trivial, fun hmoves => ⟨samples, hvalid, ?_, hmoves, hends, fun sample hmem => ?_⟩⟩
  · by_contra hneg
    rw [(hflat hneg).2, Scalar.zero_beq_zero] at hmoves
    cases hmoves
  · obtain ⟨s, s', hrun⟩ := hsamples sample hmem
    obtain ⟨g', s₁, hgradient, hrun⟩ := Run.bind_eq_ok hrun
    exact ⟨g', ⟨s, s₁, hgradient⟩, (EStateM.Result.ok.inj hrun).1.symm⟩

variable {gradient : Vec α n → Run α σ (Vec α n)} {rule : Rule α} {x g d : Vec α n}
  {samples : List (Sample α)} {length : α}

/-- The step ends where the slope is small, or not positive. -/
theorem Advances.slope (h : Advances gradient rule x g d samples length) :
    ∃ g', (gradient (Vec.along x length d)).Gives g' ∧
      (Scalar.abs (Vec.dot g' d) ≤ rule.threshold * Scalar.abs (Vec.dot g d) ∨
        ¬0 < Vec.dot g' d) := by
  obtain hzero | ⟨slope, hmem, -, hslope⟩ := h.ends.acceptable
  · have hmoves := h.moves
    rw [hzero, Scalar.zero_beq_zero] at hmoves
    cases hmoves
  · obtain ⟨g', hgradient, rfl⟩ := h.computed _ hmem
    exact ⟨g', hgradient, hslope⟩

end

/-- Over the reals a step goes forward, to where the slope is at most the one that was asked for. -/
theorem Advances.slope_le {σ : Type} {n : Nat} {gradient : Vec ℝ n → Run ℝ σ (Vec ℝ n)}
    {rule : Rule ℝ} {x g d : Vec ℝ n} {samples : List (Sample ℝ)} {length : ℝ}
    (h : Advances gradient rule x g d samples length) :
    0 < length ∧ ∃ g', (gradient (Vec.along x length d)).Gives g' ∧
      Vec.dot g' d ≤ rule.threshold * |Vec.dot g d| := by
  have hvalid := Rule.valid_of_check h.valid
  have hne : length ≠ 0 := beq_eq_false_iff_ne.1 h.moves
  refine ⟨(h.ends.furthest hvalid).1.lt_of_ne' hne, ?_⟩
  obtain ⟨g', hgradient, hsmall | hneg⟩ := h.slope
  · exact ⟨g', hgradient, (le_abs_self _).trans hsmall⟩
  · exact ⟨g', hgradient, (not_lt.1 hneg).trans (Rule.target_nonneg hvalid _)⟩

end Descent.Ray
