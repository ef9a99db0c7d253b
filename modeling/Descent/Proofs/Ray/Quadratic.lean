import Mathlib.Algebra.Order.Archimedean.Basic
import Descent.Proofs.Exact.Euclidean
import Descent.Proofs.Ray.Furthest
import Descent.Proofs.Ray.Postcondition

/-!
# Searches along a quadratic

Where the slope rises at a constant rate, from `-s` at the start, the straight line through the two
slopes of a bracket is the slope itself. So the first secant meets its zero `s / c`, and a search
that may double its length often enough ends at a small slope.

* `Ray.Rises`: rays with slope `-s + c * length`, on which every slope adds one to a count;
* `Ray.bracket_rises`: the first phase doubles its length until the slope is no longer negative;
* `Ray.Bracket.Chord.trial_eq`: the first trial of the second phase;
* `Ray.descend_rises`: the search from a known slope; `Ray.searchArrays_quadratic`: the search of
  callers.
-/

namespace Descent

namespace Ray

variable {σ : Type} {I : Nat → Invariant ℝ σ} {ray : Ray ℝ σ} {s c : ℝ}

/-- The slope is `-s + c * length`, nothing is outside, and every slope adds one to a count. -/
structure Rises (I : Nat → Invariant ℝ σ) (s c : ℝ) (ray : Ray ℝ σ) : Prop where
  start_pos : 0 < s
  rate_pos : 0 < c
  inside : ∀ length k, (ray.outside length).Yields (I k) false
  slope : ∀ length k, Run.Triple (·.Has (I k)) (ray.slope length)
    (fun a t => t.Has (I (k + 1)) ∧ a = -s + c * length) fun _ _ => False

/-- A probe goes on with the slope at its length. -/
theorem Rises.probe (h : ray.Rises I s c) {β : Type} {length : ℝ} {k : Nat} {out : Run ℝ σ β}
    {inside : ℝ → Run ℝ σ β} {Q : β → Session ℝ σ → Prop}
    (hin : Run.Triple (·.Has (I (k + 1))) (inside (-s + c * length)) Q fun _ _ => False) :
    Run.Triple (·.Has (I k))
      (do if ← ray.outside length then out else inside (← ray.slope length)) Q
      fun _ _ => False := by
  refine .bind (h.inside length k) fun b => ?_
  rintro t ⟨ht, rfl⟩
  refine Run.Triple.bind (h.slope length k) (fun a => ?_) t ht
  rintro t ⟨ht, rfl⟩
  exact hin t ht

/-! ## The bracket -/

/-- A bracket with the slopes at its ends, with a negative and a positive one, whose upper end is at
least twice the lower one. -/
structure Bracket.Chord (s c : ℝ) (b : Bracket ℝ) : Prop where
  lowerSlope_eq : b.lowerSlope = -s + c * b.lower
  upperSlope_eq : b.upperSlope = -s + c * b.upper
  lowerSlope_neg : b.lowerSlope < 0
  upperSlope_pos : 0 < b.upperSlope
  upper_pos : 0 < b.upper
  wide : 2 * b.lower ≤ b.upper
  fresh : b.repeats = 0

namespace Bracket.Chord

variable {b : Bracket ℝ}

theorem lower_lt (h : b.Chord s c) (hc : 0 < c) : b.lower < s / c := by
  rw [lt_div_iff₀ hc]
  linarith [h.lowerSlope_eq, h.lowerSlope_neg, mul_comm c b.lower]

theorem lt_upper (h : b.Chord s c) (hc : 0 < c) : s / c < b.upper := by
  rw [div_lt_iff₀ hc]
  linarith [h.upperSlope_eq, h.upperSlope_pos, mul_comm c b.upper]

/-- The straight line through both ends is the slope. -/
theorem secant_eq (h : b.Chord s c) (hc : 0 < c) : b.secant = .ok (s / c) := by
  have hwidth : 0 < b.upper - b.lower := sub_pos.2 ((h.lower_lt hc).trans (h.lt_upper hc))
  have hrise : b.upperSlope - b.lowerSlope = c * (b.upper - b.lower) := by
    rw [h.upperSlope_eq, h.lowerSlope_eq]
    ring
  have hne : b.upperSlope - b.lowerSlope ≠ 0 := hrise ▸ (mul_pos hc hwidth).ne'
  have hzero : b.lower - b.lowerSlope * (b.upper - b.lower) / (b.upperSlope - b.lowerSlope) =
      s / c := by
    rw [hrise, mul_div_mul_right _ _ hwidth.ne', h.lowerSlope_eq]
    field_simp
    ring
  rw [secant, Scalar.quotient_real hne]
  exact congrArg Except.ok hzero

/-- **The first trial is the minimizer.** -/
theorem trial_eq (h : b.Chord s c) (hc : 0 < c) : b.trial = .ok (s / c, 0) := by
  have hinside : ¬(decide (2 ≤ b.repeats) ||
      !(decide (b.lower < s / c) && decide (s / c < b.upper))) = true := by
    simp [h.fresh, h.lower_lt hc, h.lt_upper hc]
  rw [trial, h.secant_eq hc]
  refine (if_neg hinside).trans ?_
  rw [h.fresh]
  rfl

theorem isNarrow_eq (h : b.Chord s c) : b.isNarrow = false := by
  have hupper := h.upper_pos
  have hwide := h.wide
  rw [isNarrow, decide_eq_false_iff_not, not_le]
  norm_num
  linarith

end Bracket.Chord

/-! ## Both phases -/

/-- A first length at which the slope is not negative is the last one of the first phase: `j`
doublings lead to it. -/
inductive Bracketing.Reaches (s c target length : ℝ) (j k : Nat) : Bracketing ℝ → Prop
  | found {a : ℝ} {n : Nat} (hlength : ∃ i ≤ j, a = length * 2 ^ i)
      (hsmall : |-s + c * a| ≤ target) (hn : n ≤ k + j + 1) :
      Reaches s c target length j k (.found a n)
  | between {b : Bracket ℝ} {n : Nat} (hb : b.Chord s c) (hn : n = k + j + 1) :
      Reaches s c target length j k (.between b n)

/-- One doubling before the others. -/
theorem Bracketing.Reaches.double {target length : ℝ} {j k : Nat} {r : Bracketing ℝ}
    (h : r.Reaches s c target (length * 2) j (k + 1)) : r.Reaches s c target length (j + 1) k := by
  cases h with
  | found hlength hsmall hn =>
    obtain ⟨i, hi, ha⟩ := hlength
    refine .found ⟨i + 1, Nat.succ_le_succ hi, ?_⟩ hsmall (by omega)
    rw [ha, pow_succ', mul_assoc]
  | between hb hn => exact .between hb (by omega)

/-- **The first phase** doubles the length until the slope is no longer negative, unless it is small
before. -/
theorem bracket_rises (h : ray.Rises I s c) (shrink : ℝ) {target : ℝ} (htarget : 0 ≤ target) :
    ∀ (j rounds : Nat) (lower length : ℝ) (k : Nat), j < rounds → 0 < length →
      2 * lower ≤ length → -s + c * lower < 0 → IsLeast {i | s / c ≤ length * 2 ^ i} j →
      Run.Triple (·.Has (I k))
        (bracket ray shrink target rounds lower (-s + c * lower) length k)
        (fun r t => t.Has (I r.evaluations) ∧ r.Reaches s c target length j k)
        fun _ _ => False := by
  -- on the doublings that are left
  intro j
  induction j with
  | zero =>
    intro rounds lower length k hrounds hlength hwide hlower hj
    obtain ⟨rounds, rfl⟩ := Nat.exists_eq_add_one.2 hrounds
    have hnonneg : 0 ≤ -s + c * length := by
      have hle : s / c ≤ length * 2 ^ 0 := hj.1
      rw [pow_zero, mul_one, div_le_iff₀ h.rate_pos] at hle
      linarith [mul_comm c length]
    refine h.probe ?_
    rw [if_neg (by simp [Scalar.isFinite])]
    refine .ite (fun hsmall => ?_) fun hlarge => ?_
    · exact .pure fun t ht => ⟨ht, .found ⟨0, le_rfl, by rw [pow_zero, mul_one]⟩ hsmall le_rfl⟩
    · have hpos : 0 < -s + c * length := by
        refine hnonneg.lt_of_ne' fun hzero => hlarge ?_
        rw [hzero]
        exact le_of_eq_of_le abs_zero htarget
      rw [if_pos hpos]
      exact .pure fun t ht => ⟨ht, .between ⟨rfl, rfl, hlower, hpos, hlength, hwide, rfl⟩ rfl⟩
  | succ j ih =>
    intro rounds lower length k hrounds hlength hwide hlower hj
    obtain ⟨rounds, rfl⟩ := Nat.exists_eq_add_one.2 (Nat.zero_lt_of_lt hrounds)
    have hneg : -s + c * length < 0 := by
      have hlt : ¬s / c ≤ length * 2 ^ 0 := fun hle => absurd (hj.2 hle) (Nat.not_succ_le_zero j)
      rw [pow_zero, mul_one, not_le, lt_div_iff₀ h.rate_pos] at hlt
      linarith [mul_comm c length]
    have hnext : IsLeast {i | s / c ≤ length * 2 * 2 ^ i} j := by
      have hdouble (i : Nat) : s / c ≤ length * 2 * 2 ^ i ↔ s / c ≤ length * 2 ^ (i + 1) := by
        rw [pow_succ', mul_assoc]
      refine ⟨(hdouble j).2 hj.1, fun i hi => Nat.le_of_succ_le_succ (hj.2 ?_)⟩
      exact (hdouble i).1 hi
    refine h.probe ?_
    rw [if_neg (by simp [Scalar.isFinite])]
    refine .ite (fun hsmall => ?_) fun _ => ?_
    · have hzero : length = length * 2 ^ 0 := by rw [pow_zero, mul_one]
      exact .pure fun t ht => ⟨ht, .found ⟨0, Nat.zero_le _, hzero⟩ hsmall (by omega)⟩
    · rw [if_neg hneg.not_gt]
      have htwo : length * (2.0 : ℝ) = length * 2 := by norm_num
      rw [htwo]
      refine (ih rounds length (length * 2) (k + 1) (by omega) (by linarith) (by linarith) hneg
        hnext).conseq (fun _ ht => ht) (fun r t ht => ⟨ht.1, ht.2.double⟩) fun _ _ hf => hf

/-- **The second phase** ends with its first round. -/
theorem refine_rises (h : ray.Rises I s c) {target : ℝ} (htarget : 0 ≤ target) {rounds : Nat}
    (hrounds : 0 < rounds) {b : Bracket ℝ} (hb : b.Chord s c) (k : Nat) :
    Run.Triple (·.Has (I k)) (refine ray target rounds b k)
      (fun found t => t.Has (I (k + 1)) ∧ found = ⟨s / c, k + 1⟩) fun _ _ => False := by
  obtain ⟨rounds, rfl⟩ := Nat.exists_eq_add_one.2 hrounds
  have hzero : -s + c * (s / c) = 0 := by
    rw [mul_div_cancel₀ _ h.rate_pos.ne', neg_add_cancel]
  have hround : Run.Triple (·.Has (I k)) (narrow ray target b k)
      (fun r t => t.Has (I (k + 1)) ∧ r = .found (s / c) (k + 1)) fun _ _ => False := by
    rw [narrow, hb.trial_eq h.rate_pos]
    refine h.probe ?_
    have hsmall : Scalar.abs (0 : ℝ) ≤ target := le_of_eq_of_le abs_zero htarget
    rw [hzero, if_neg (by simp [Scalar.isFinite]), if_pos hsmall]
    exact .pure fun t ht => ⟨ht, rfl⟩
  rw [refine, if_neg (by simp [hb.isNarrow_eq])]
  refine .bind hround fun r => ?_
  rintro t ⟨ht, rfl⟩
  exact ⟨ht, rfl⟩

/-! ## Searches -/

/-- What a search finds, `j` doublings leading to a slope that is not negative: a small slope, with
at most two more slopes, at one of the doubled lengths or else at the minimizer. -/
structure Found.Solves (s c : ℝ) (rule : Rule ℝ) (j k : Nat) (found : Found ℝ) : Prop where
  small : |-s + c * found.length| ≤ rule.threshold * s
  evaluations_le : found.evaluations ≤ k + j + 2
  length_eq : (∃ i ≤ j, found.length = rule.start * 2 ^ i) ∨ found.length = s / c

/-- **The search from the slope at the start**, when `k` slopes have been computed. -/
theorem descend_rises (h : ray.Rises I s c) {rule : Rule ℝ} (hthreshold : 0 < rule.threshold)
    (hstart : 0 < rule.start) {j : Nat} (hrounds : j < rule.rounds)
    (hj : IsLeast {i | s / c ≤ rule.start * 2 ^ i} j) (k : Nat) :
    Run.Triple (·.Has (I k)) (descend ray rule (-s) k)
      (fun found t => t.Has (I found.evaluations) ∧ found.Solves s c rule j k)
      fun _ _ => False := by
  have hs := h.start_pos
  have habs : Scalar.abs (-s) = s := by
    change |-s| = s
    rw [abs_neg, abs_of_pos hs]
  have htarget : 0 ≤ rule.threshold * s := (mul_pos hthreshold hs).le
  have hzero : -s + c * 0 = -s := by rw [mul_zero, add_zero]
  have hbracket := bracket_rises h rule.shrink htarget j rule.rounds 0 rule.start k hrounds hstart
    (by linarith) (by linarith) hj
  rw [hzero] at hbracket
  rw [descend, if_neg (by simp [hs]), habs]
  refine .bind hbracket fun r => ?_
  rintro t ⟨ht, hr⟩
  cases hr with
  | found hlength hsmall hn => exact ⟨ht, hsmall, Nat.le_succ_of_le hn, .inl hlength⟩
  | between hb hn =>
    subst hn
    refine (refine_rises h htarget (Nat.zero_lt_of_lt hrounds) hb _).conseq (fun _ ht => ht) ?_
      (fun _ _ hf => hf) t ht
    rintro found t ⟨ht, rfl⟩
    refine ⟨ht, ?_, le_rfl, .inr rfl⟩
    rw [mul_div_cancel₀ _ h.rate_pos.ne', neg_add_cancel, abs_zero]
    exact htarget

/-- Doubling leads beyond every bound, so there is a first doubling that does. -/
theorem exists_isLeast_doubling {start bound : ℝ} {rounds : Nat} (hrounds : 1 ≤ rounds)
    (hreach : bound ≤ start * 2 ^ (rounds - 1)) :
    ∃ j < rounds, IsLeast {i | bound ≤ start * 2 ^ i} j := by
  classical
  have hexists : ∃ i, bound ≤ start * 2 ^ i := ⟨rounds - 1, hreach⟩
  refine ⟨Nat.find hexists, ?_, Nat.find_spec hexists, fun i hi => Nat.find_min' hexists hi⟩
  exact (Nat.find_min' hexists hreach).trans_lt (Nat.sub_one_lt_of_le hrounds le_rfl)

/-! ## Searches for callers -/

variable [RealText] {gradient : VectorField ℝ σ} {x d : Array ℝ}

/-- The gradient gives the slopes of a quadratic on the ray from `x` along `d`, and every call of it
adds one to a count. -/
structure Quadratic (I : Nat → Invariant ℝ σ) (gradient : VectorField ℝ σ) (x d : Array ℝ)
    (s c : ℝ) : Prop where
  start_pos : 0 < s
  rate_pos : 0 < c
  gradient : ∀ length, ∃ point, pointAt x d length = .ok point ∧
    ∀ k, Run.Triple (·.Has (I k)) (gradient point)
      (fun value t => t.Has (I (k + 1)) ∧ slopeOf d point value = .ok (-s + c * length))
      fun _ _ => False

theorem Quadratic.rises (h : Quadratic I gradient x d s c) :
    (stretched gradient Region.everywhere x d).Rises I s c where
  start_pos := h.start_pos
  rate_pos := h.rate_pos
  inside length k := by
    obtain ⟨point, hpoint, -⟩ := h.gradient length
    exact .bind (.ofExcept hpoint) .pure
  slope length k := by
    obtain ⟨point, hpoint, hgradient⟩ := h.gradient length
    have hslope : (stretched gradient Region.everywhere x d).slope length =
        gradient point >>= fun value => Run.ofExcept (slopeOf d point value) := by
      simp only [stretched, hpoint, VectorField.valueAt, slopeOf, Run.ofExcept_bind, bind_assoc]
      rfl
    rw [hslope]
    refine .bind (hgradient k) fun value => ?_
    rintro t ⟨ht, hvalue⟩
    rw [hvalue]
    exact ⟨ht, rfl⟩

/-- **A search succeeds on every quadratic** with a minimizer that `rounds - 1` doublings of the
first length reach. It returns a length with a small slope: one of the doubled lengths, or else the
minimizer. If `j` doublings are needed for a slope that is not negative, it calls the gradient at
most `j + 2` times, and once more if the gradient at the start is not known. -/
theorem searchArrays_quadratic (h : Quadratic I gradient x d s c) {known : Option (Array ℝ)}
    (hknown : ∀ g, known = some g → product g d = .ok (-s)) {options : Options ℝ}
    (hthreshold : 0 < options.threshold) (hstart : 0 < options.start)
    (hshrink : 0 < options.shrink ∧ options.shrink < 1) {rounds : Nat}
    (hrounds : (options.rounds.toNumber >>= Number.toCount) = .ok rounds) (hone : 1 ≤ rounds)
    (hreach : s / c ≤ options.start * 2 ^ (rounds - 1)) :
    ∃ j, IsLeast {i | s / c ≤ options.start * 2 ^ i} j ∧
      Run.Triple (·.Has (I 0)) (searchArrays gradient x d options Region.everywhere known)
        (fun found t => t.Has (I found.evaluations) ∧
          |-s + c * found.length| ≤ options.threshold * s ∧
          found.evaluations ≤ j + 2 + (if known.isNone then 1 else 0) ∧
          ((∃ i ≤ j, found.length = options.start * 2 ^ i) ∨ found.length = s / c))
        fun _ _ => False := by
  obtain ⟨j, hlt, hj⟩ := exists_isLeast_doubling hone hreach
  refine ⟨j, hj, ?_⟩
  have hvalid : (options.rule 0).check = .ok () := by
    simp [Rule.check, Options.rule, demand, hthreshold.not_ge, hshrink.1, hshrink.2, hstart.not_ge]
    rfl
  have hdescend (k : Nat) : Run.Triple (·.Has (I k))
      (do
        if !decide (-s < 0) then return ⟨0, k⟩
        else
          let rounds ← Run.ofExcept (options.rounds.toNumber >>= Number.toCount)
          descend (stretched gradient Region.everywhere x d) (options.rule rounds) (-s) k)
      (fun found t => t.Has (I found.evaluations) ∧
        found.Solves s c (options.rule rounds) j k) fun _ _ => False := by
    rw [if_neg (by simp [h.start_pos]), hrounds]
    exact descend_rises h.rises hthreshold hstart hlt hj k
  refine .passed hvalid ?_
  cases known with
  | some g =>
    refine Run.Triple.passed (hknown g rfl) ?_
    refine (hdescend 0).conseq (fun _ ht => ht) ?_ fun _ _ hf => hf
    rintro found t ⟨ht, hfound⟩
    exact ⟨ht, hfound.small, by simpa using hfound.evaluations_le, hfound.length_eq⟩
  | none =>
    refine Run.Triple.bind (h.rises.slope 0 0) fun slope => ?_
    rintro t ⟨ht, hslope⟩
    rw [mul_zero, add_zero] at hslope
    subst hslope
    refine (hdescend 1).conseq (fun _ ht => ht) ?_ (fun _ _ hf => hf) t ht
    rintro found t ⟨ht, hfound⟩
    have hle := hfound.evaluations_le
    exact ⟨ht, hfound.small, by simp; omega, hfound.length_eq⟩

/-- The gradient of `(x - 3) ^ 2 / 2`, which counts its calls. -/
def countedParabola : VectorField ℝ Nat := fun point => do
  modify fun t => { t with caller := t.caller + 1 }
  return .vector (point.map (· - 3))

theorem countedParabola_quadratic :
    Quadratic (callsMade id) countedParabola #[0] #[1] 3 1 where
  start_pos := by norm_num
  rate_pos := by norm_num
  gradient length := by
    refine ⟨#[length], by simp [pointAt, commonLength, stretch], fun k t ht => ?_⟩
    have hvalue : slopeOf #[1] #[length] (.vector #[length - 3]) =
        .ok (Vec.dot #v[length - 3] #v[1]) := rfl
    have hmap : #[length].map (· - 3) = #[length - 3] := by simp
    refine ⟨congrArg (· + 1) ht, ?_⟩
    rw [hmap, hvalue, Vec.dot_eq_sum]
    simp
    ring

end Ray

open Ray in
/-- The trials are one, two and four, which are no minimizer; then there is the secant. -/
theorem searchArrays_quadratic_parabola :
    letI := RealText.mute
    ∃ found t, (searchArrays countedParabola #[0] #[1] {} Region.everywhere none).run (.initial 0) =
      .ok found t ∧ found.length = 3 ∧ found.evaluations ≤ 5 ∧ t.caller = found.evaluations := by
  let _ := RealText.mute
  have hknown (g : Array ℝ) (hg : none = some g) : product g #[1] = .ok (-3) := by
    cases hg
  have hthreshold : 0 < ({} : Options ℝ).threshold := by norm_num
  have hrounds : ((({} : Options ℝ).rounds).toNumber >>= Number.toCount) = .ok 60 := rfl
  obtain ⟨j, hj, hsearch⟩ := searchArrays_quadratic countedParabola_quadratic hknown hthreshold
    (by norm_num) (by norm_num) hrounds (by norm_num) (by norm_num)
  have hstart : (Session.initial 0 : Session ℝ Nat).Has (callsMade id 0) := rfl
  have hsearch := hsearch _ hstart
  cases hrun : (searchArrays countedParabola #[0] #[1] {} Region.everywhere none).run
      (.initial 0) with
  | error fault t =>
    rw [hrun] at hsearch
    exact hsearch.elim
  | ok found t =>
    rw [hrun] at hsearch
    obtain ⟨hcalls, hsmall, hle, hlength⟩ := hsearch
    have htwo : IsLeast {i | (3 : ℝ) / 1 ≤ 1 * 2 ^ i} 2 := by
      refine ⟨by norm_num, fun i hi => ?_⟩
      by_contra hlt
      interval_cases i <;> norm_num at hi
    cases hj.unique htwo
    refine ⟨found, t, rfl, hlength.resolve_left ?_ |>.trans (div_one 3), hle, hcalls⟩
    rintro ⟨i, hi, hlength⟩
    rw [hlength] at hsmall
    interval_cases i <;> norm_num at hsmall

end Descent
