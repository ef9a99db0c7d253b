import Descent.Proofs.Exact.Euclidean
import Descent.Proofs.Ray.Bracket

/-!
# The brackets of a search

Over the reals every bracket of the second phase has the minimum between its ends as far as the
search has seen: the slope at the lower end was negative, and the upper end has a positive slope or
is outside the domain. The next trial lies strictly inside, so each bracket is nested in the one
before, and rounds that keep moving the same end are cut short by a bisection.

* `Ray.Bracket.Shown`: what the trials of a search have shown of the ends of a bracket.
  `Ray.Bracket.Shown.moves`, `Ray.path_shown`: a round keeps this, and so do rounds in a row.
* `Ray.Encloses.shown`: it holds of the bracket that the first phase ends with;
  `Ray.Refines.shown`: it holds wherever a search has come to the head of a round.
* `Ray.searchArrays_brackets`: all of this, for searches of callers.
-/

namespace Descent

namespace Ray

/-- What the trials of a search have shown of a bracket; `start` is the slope at the start. -/
structure Bracket.Shown (start : ℝ) (trials : List (Trial ℝ)) (b : Bracket ℝ) : Prop where
  lower_nonneg : 0 ≤ b.lower
  /-- The lower end is the start, or a length inside where the slope was negative. -/
  lower : b.lower = 0 ∧ start < 0 ∨ ∃ a < 0, ⟨b.lower, some a⟩ ∈ trials
  /-- The upper end is a length outside, or one where the slope was positive. -/
  upper : ⟨b.upper, none⟩ ∈ trials ∨ ∃ a > 0, ⟨b.upper, some a⟩ ∈ trials

variable {σ : Type} {ray : Ray ℝ σ} {rule : Rule ℝ} {target start : ℝ} {b c : Bracket ℝ}
  {trial : Trial ℝ} {trials : List (Trial ℝ)}

/-! ## Rounds -/

/-- More trials take nothing back. -/
theorem Bracket.Shown.append (h : b.Shown start trials) (more : List (Trial ℝ)) :
    b.Shown start (trials ++ more) where
  lower_nonneg := h.lower_nonneg
  lower := h.lower.imp_right fun ⟨a, ha, hmem⟩ => ⟨a, ha, List.mem_append_left _ hmem⟩
  upper := h.upper.imp (List.mem_append_left _) fun ⟨a, ha, hmem⟩ =>
    ⟨a, ha, List.mem_append_left _ hmem⟩

/-- **A trial ahead of the lower end** shows what has to be known of the end that it moves. -/
theorem Bracket.Shown.moves (h : b.Shown start trials) (htarget : 0 ≤ target)
    (hmoves : b.Moves target trial c) (hlower : b.lower < trial.length) :
    c.Shown start (trials ++ [trial]) := by
  have hmem : trial ∈ trials ++ [trial] := List.mem_append_right _ (List.mem_singleton_self _)
  obtain ⟨hnonneg, hdescends, hascends⟩ := h.append [trial]
  cases hmoves with
  | outside => exact ⟨hnonneg, hdescends, .inl hmem⟩
  | infinite hslope => cases hslope
  | @positive length slope _ _ hpos =>
    refine ⟨?_, ?_, .inr ⟨slope, hpos, ?_⟩⟩
    · rwa [lower_moveUpper]
    · rwa [lower_moveUpper]
    · rwa [upper_moveUpper]
  | @negative length slope _ hlarge hneg =>
    refine ⟨?_, .inr ⟨slope, slope_neg htarget hlarge hneg, ?_⟩, ?_⟩
    · rw [lower_moveLower]
      exact hnonneg.trans hlower.le
    · rwa [lower_moveLower]
    · rwa [upper_moveLower]

/-- Rounds in a row. -/
theorem path_shown {h h' : Head ℝ} {s t : Session ℝ σ} {narrowings : List (Narrowing ℝ)}
    (hpath : Run.Path (turn ray target) h s narrowings h' t) (htarget : 0 ≤ target)
    (hproper : h.bracket.Proper) (hshown : h.bracket.Shown start trials) :
    h'.bracket.Shown start (trials ++ narrowings.map (·.trial)) := by
  induction hpath with
  | start => exact hshown.append _
  | @again earlier y z narrowing _ _ before hrun ih =>
    have hturns := turns_of_run hrun
    obtain ⟨repeats, -, hmoves⟩ := hturns.moves
    have hshown : Bracket.Shown start (trials ++ earlier.map (·.trial))
        { y.bracket with repeats } := ⟨ih.lower_nonneg, ih.lower, ih.upper⟩
    have hahead := (hturns.trial_mem (path_width before htarget hproper).1).1
    rw [List.map_append, ← List.append_assoc]
    exact hshown.moves htarget hmoves hahead

/-! ## Searches -/

/-- The first phase ends with a proper bracket, of which its trials have shown this. -/
theorem Encloses.shown {k j : Nat} {s t : Session ℝ σ}
    (h : Encloses ray rule start k s trials b j t) (hrule : rule.Valid) (hstart : start < 0) :
    b.Proper ∧ b.Shown start trials := by
  have htarget := Rule.target_nonneg hrule start
  have hsigned := bracket_signed ray rule.shrink htarget rule.rounds 0 start rule.start k hstart
  obtain ⟨samples, lowerSlope, hbrackets, hsamples, hupper, hpos⟩ := h.brackets
  obtain ⟨⟨hlower, hgreatest⟩, hlt⟩ := hbrackets.furthest hrule
  refine ⟨⟨(hsigned.of_ok trivial h.run_bracket).2, hlt⟩, hgreatest (.inl rfl), ?_,
    .inr ⟨_, hpos, hupper⟩⟩
  obtain hzero | ⟨a, ha, hmem⟩ := hlower
  · exact .inl ⟨hzero, hstart⟩
  · exact .inr ⟨a, ha, hsamples _ hmem⟩

/-- **The bracket at the head of a round** is proper, and the trials of the search have shown what
it stands for. -/
theorem Refines.shown {k : Nat} {s t : Session ℝ σ} {h : Head ℝ}
    (hrefines : Refines ray rule start k s trials h t) (hrule : rule.Valid) :
    h.bracket.Proper ∧ h.bracket.Shown start trials := by
  obtain ⟨hneg, earlier, b, j, s₁, narrowings, rfl, hencloses, hpath⟩ := hrefines
  have htarget := Rule.target_nonneg hrule start
  obtain ⟨hproper, hshown⟩ := hencloses.shown hrule hneg
  exact ⟨(path_width hpath htarget hproper).1, path_shown hpath htarget hproper hshown⟩

/-- **The brackets of a search.** Wherever the second phase of a search has come to the head of a
round, the ends are in order and the slopes kept for them have opposite signs; the slope at the
lower end was negative, and the upper end is outside the domain or has a positive slope; the secant
lies strictly inside. A round from there leads to a narrower bracket inside this one, and four
rounds in a row that move the same end to a length with a slope contain a bisection, so together
they at least halve the width. -/
theorem searchArrays_brackets [RealText] {gradient : VectorField ℝ σ} {outside : Region ℝ σ}
    {x d : Array ℝ} {options : Options ℝ} {known : Option (Array ℝ)} {s₀ s t : Session ℝ σ}
    {head : Head ℝ}
    (hreaches : Reaches gradient outside x d options known s₀ start s trials head t) :
    -- this is a head of the run, and the run goes on from here
    ((searchArrays gradient x d options outside known).run s₀ =
        (refine (stretched gradient outside x d) (options.threshold * |start|) head.left
          head.bracket head.evaluations).run t) ∧
      -- the ends and the slopes kept for them
      0 ≤ head.bracket.lower ∧ head.bracket.lower < head.bracket.upper ∧
      head.bracket.lowerSlope < 0 ∧ 0 < head.bracket.upperSlope ∧
      -- what the run has seen there since it knew the slope at the start
      Trials (stretched gradient outside x d) s trials t ∧
      (head.bracket.lower = 0 ∧ start < 0 ∨ ∃ a < 0, ⟨head.bracket.lower, some a⟩ ∈ trials) ∧
      (⟨head.bracket.upper, none⟩ ∈ trials ∨ ∃ a > 0, ⟨head.bracket.upper, some a⟩ ∈ trials) ∧
      -- the secant
      (∃ secant, head.bracket.secant = .ok secant ∧ head.bracket.lower < secant ∧
        secant < head.bracket.upper) ∧
      -- the next round
      (∀ narrowing next u,
        (turn (stretched gradient outside x d) (options.threshold * |start|) head).run t =
          .ok (.again narrowing next) u →
        next.bracket.interval ⊆ head.bracket.interval ∧
          next.bracket.width < head.bracket.width) ∧
      -- the next four rounds
      ∀ side ≠ Side.none, ∀ four last u,
        Run.Path (turn (stretched gradient outside x d) (options.threshold * |start|)) head t four
          last u → four.length = 4 → (∀ narrowing ∈ four, narrowing.trial.side = side) →
        (∃ narrowing ∈ four, narrowing.bracket.Bisects) ∧
          last.bracket.width ≤ head.bracket.width / 2 := by
  have hgoes := hreaches.run_searchArrays
  obtain ⟨hcheck, k, rounds, -, -, hrefines⟩ := hreaches
  have hvalid : (options.rule rounds).Valid := Rule.valid_of_check hcheck
  obtain ⟨hproper, hshown⟩ := hrefines.shown hvalid
  refine ⟨hgoes, hshown.lower_nonneg, hproper.lower_lt_upper, hproper.signed.1,
    hproper.signed.2, hrefines.tries, hshown.lower, hshown.upper, hproper.secant_mem, ?_, ?_⟩
  · intro narrowing next u hrun
    have hturns := turns_of_run hrun
    exact ⟨hturns.interval_subset hproper, hturns.width_lt hproper⟩
  · intro side hside four last u hpath hfour hmoves
    have hbisects := streak_bisects hside hpath (by omega) hmoves
    have htarget : 0 ≤ options.threshold * |start| := Rule.target_nonneg hvalid start
    exact ⟨hbisects, (path_width hpath htarget hproper).2.2 hbisects⟩

/-! ## A kink -/

/-- The slopes of `|x|`, negative at zero. -/
noncomputable def kink : VectorField ℝ Unit := fun point =>
  return .vector #[if 0 < point.getD 0 0 then 1 else -1]

section

variable [RealText]

/-- The ray from zero along the kink. -/
noncomputable def kinkRay : Ray ℝ Unit :=
  stretched kink Region.everywhere #[0] #[1]

theorem outside_kinkRay (length : ℝ) :
    (kinkRay.outside length).Yields Invariant.none false := by
  refine .bind (b := #[length]) (.ofExcept ?_) .pure
  simp [pointAt, commonLength, stretch]

theorem slope_kinkRay (length : ℝ) :
    (kinkRay.slope length).Yields Invariant.none (if 0 < length then 1 else -1) := by
  refine .bind (b := #[length]) (.ofExcept ?_)
    (.bind (b := #v[if 0 < length then 1 else -1]) (.bind .pure (.ofExcept rfl)) (.ofExcept ?_))
  · simp [pointAt, commonLength, stretch]
  · simp [product, Vec.dot_eq_sum, Vec.ofArray]

theorem probe_kinkRay {length : ℝ} (h : 0 < length) :
    (kinkRay.probe length).Yields Invariant.none (some 1) := by
  have hslope := slope_kinkRay length
  rw [if_pos h] at hslope
  exact .bind (outside_kinkRay length) (.bind hslope .pure)

/-- A bracket that begins at the kink is never too narrow, and a round moves its upper end. -/
theorem turn_kinkRay (htarget : 0 ≤ target) (hlt : target < 1) (hb : b.Proper)
    (hlower : b.lower = 0) (left k : Nat) (s : Session ℝ Unit) :
    ∃ narrowing next t, (turn kinkRay target ⟨left + 1, b, k⟩).run s =
      .ok (.again narrowing next) t ∧ narrowing.trial.side = .upper ∧ next.left = left ∧
        next.bracket.Proper ∧ next.bracket.lower = 0 := by
  obtain ⟨length, repeats, htrial, hahead, -⟩ := hb.exists_trial
  rw [hlower] at hahead
  have hwide : b.isNarrow = false := by
    have hupper := hlower ▸ hb.lower_lt_upper
    rw [Bracket.isNarrow, decide_eq_false_iff_not, not_le, hlower]
    norm_num
    linarith
  have hlarge : ¬Scalar.abs (1 : ℝ) ≤ target := by simpa [Scalar.abs] using hlt
  have hsettle : Bracket.settle target { b with repeats } k ⟨length, some 1⟩ =
      .narrowed (Bracket.moveUpper { b with repeats } length 1) (k + 1) := by
    simp [Bracket.settle, Scalar.isFinite, hlarge]
  have hturn : (turn kinkRay target ⟨left + 1, b, k⟩).Yields Invariant.none
      (.again ⟨b, ⟨length, some 1⟩⟩
        ⟨left, Bracket.moveUpper { b with repeats } length 1, k + 1⟩) := by
    rw [turn]
    dsimp only
    rw [hwide, if_neg Bool.false_ne_true]
    refine .bind (.ofExcept htrial) (.bind (probe_kinkRay hahead) ?_)
    dsimp only
    rw [hsettle]
    exact .pure
  obtain ⟨t, hrun, -⟩ := hturn.exists_run (s := s) trivial
  refine ⟨_, _, t, hrun, by simp [Trial.side, Scalar.isFinite], rfl,
    (turns_of_run hrun).proper htarget hb, ?_⟩
  rw [Bracket.lower_moveUpper]
  exact hlower

/-- As many rounds as there are left move the upper end toward the kink. -/
theorem path_kinkRay (htarget : 0 ≤ target) (hlt : target < 1) (hb : b.Proper)
    (hlower : b.lower = 0) (left k : Nat) (s : Session ℝ Unit) : ∀ rounds ≤ left,
    ∃ narrowings next t, Run.Path (turn kinkRay target) ⟨left, b, k⟩ s narrowings next t ∧
      narrowings.length = rounds ∧ (∀ narrowing ∈ narrowings, narrowing.trial.side = .upper) ∧
      next.left + rounds = left ∧ next.bracket.Proper ∧ next.bracket.lower = 0 := by
  intro rounds
  induction rounds with
  | zero => exact fun _ => ⟨[], _, s, .start, rfl, nofun, rfl, hb, hlower⟩
  | succ rounds ih =>
    intro hle
    obtain ⟨narrowings, ⟨more, c, j⟩, t, hpath, hlength, hsides, hleft, hproper, hzero⟩ :=
      ih (Nat.le_of_succ_le hle)
    dsimp only at hleft
    obtain ⟨more, rfl⟩ := Nat.exists_eq_add_one.2 (show 0 < more by omega)
    obtain ⟨narrowing, next, u, hrun, hside, hnext, hproper, hzero⟩ :=
      turn_kinkRay htarget hlt hproper hzero more j t
    refine ⟨_, next, u, hpath.again hrun, by simp [hlength], fun n hmem => ?_, by omega, hproper,
      hzero⟩
    obtain hmem | hmem := List.mem_append.1 hmem
    · exact hsides n hmem
    · rwa [List.mem_singleton.1 hmem]

/-- The first length that a search tries lies beyond the kink. -/
theorem encloses_kinkRay (rule : Rule ℝ) (hlt : rule.target (-1) < 1) (hrounds : 0 < rule.rounds)
    (hstart : rule.start = 1) (k : Nat) (s : Session ℝ Unit) :
    ∃ t, Encloses kinkRay rule (-1) k s [⟨1, some 1⟩] ⟨0, -1, 1, 1, .none, 0⟩ (k + 1) t := by
  obtain ⟨rounds, hsucc⟩ := Nat.exists_eq_add_one.2 hrounds
  have hlarge : ¬Scalar.abs (1 : ℝ) ≤ rule.target (-1) := by simpa [Scalar.abs] using hlt
  have hstride : (stride kinkRay rule.shrink (rule.target (-1)) (rule.opening (-1) k)).Yields
      Invariant.none
      (.done (some ⟨1, some 1⟩) (.between ⟨0, -1, 1, 1, .none, 0⟩ (k + 1))) := by
    rw [Rule.opening, hsucc, hstart, stride]
    refine .bind (probe_kinkRay one_pos) ?_
    simp only [Stride.settle, Scalar.isFinite, hlarge, one_pos, Bool.not_true, Bool.false_eq_true,
      if_false, if_true]
    exact .pure
  obtain ⟨t, hrun, -⟩ := hstride.exists_run (s := s) trivial
  exact ⟨t, [], _, _, s, rfl, .start, hrun⟩

end

end Ray

open Ray in
/-- Four rounds toward the kink: one of them is a bisection, and the bracket has at most half its
width after them. -/
theorem searchArrays_brackets_kink :
    letI := RealText.mute
    ∃ s head t four last u,
      Reaches kink Region.everywhere #[0] #[1] {} none (.initial ()) (-1) s [⟨1, some 1⟩] head t ∧
        Run.Path (turn kinkRay (1e-6 * |(-1)|)) head t four last u ∧ four.length = 4 ∧
        (∀ narrowing ∈ four, narrowing.trial.side = .upper) ∧
        head.bracket.lower < head.bracket.upper ∧ (∃ narrowing ∈ four, narrowing.bracket.Bisects) ∧
        last.bracket.width ≤ head.bracket.width / 2 := by
  let _ := RealText.mute
  have hcheck : (({} : Options ℝ).rule 0).check = .ok () := by
    simp [Rule.check, Options.rule, demand]
    norm_num
    rfl
  have hlt : (1e-6 : ℝ) * |(-1)| < 1 := by norm_num
  have hopening : (opening kinkRay #[1] none).Yields Invariant.none ((-1 : ℝ), 1) := by
    have hslope := slope_kinkRay 0
    rw [if_neg (lt_irrefl 0)] at hslope
    exact .bind hslope .pure
  obtain ⟨s, hopening, -⟩ := hopening.exists_run (s := .initial ()) trivial
  obtain ⟨t, hencloses⟩ :=
    encloses_kinkRay (({} : Options ℝ).rule 60) hlt (Nat.succ_pos _) rfl 1 s
  have hreaches : Reaches kink Region.everywhere #[0] #[1] {} none (.initial ()) (-1) s
      [⟨1, some 1⟩] ⟨60, ⟨0, -1, 1, 1, .none, 0⟩, 2⟩ t :=
    ⟨hcheck, 1, 60, hopening, rfl, by norm_num, _, _, _, t, [], rfl, hencloses, .start⟩
  obtain ⟨-, -, horder, hneg, hpos, -, -, -, -, -, hfour⟩ := searchArrays_brackets hreaches
  obtain ⟨four, last, u, hpath, hlength, hsides, -⟩ :=
    path_kinkRay (by norm_num) hlt ⟨⟨hneg, hpos⟩, horder⟩ rfl 60 2 t 4 (by norm_num)
  obtain ⟨hbisects, hwidth⟩ := hfour .upper (by decide) four last u hpath hlength hsides
  exact ⟨s, _, t, four, last, u, hreaches, hpath, hlength, hsides, horder, hbisects, hwidth⟩

end Descent
