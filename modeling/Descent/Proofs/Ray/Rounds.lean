import Descent.Proofs.Ray.Trials

/-!
# The rounds of the second phase

A round of the second phase tries a length inside the bracket and moves one of its ends there,
unless the slope is small. `Ray.refine` goes from bracket to bracket; `Ray.turn` is one round by
itself, with its trial written down.

* `Ray.Bracket.settle`: what a trial means for a bracket; `Ray.narrow_eq`. `Ray.Bracket.Moves`: the
  ways in which it moves an end (`Ray.Bracket.moves_of_settle`).
* `Ray.refine_loops`: the second phase repeats its rounds until one of them ends it.
* `Ray.Bracket.Bisects`: the next trial is the middle. `Ray.streak_bisects`: four rounds in a row
  that move the same end to a length with a slope contain such a trial.
* `Ray.Refines`, `Ray.Reaches`: a search has come to the head of a round;
  `Ray.Reaches.run_searchArrays`.
-/

namespace Descent.Ray

variable {α σ : Type} [Scalar α]

/-- The end of a bracket that a trial moves by its slope, none where nothing is known of that. -/
def Trial.side (trial : Trial α) : Side :=
  match trial.slope? with
  | none => .none
  | some slope => if !Scalar.isFinite slope then .none else if 0 < slope then .upper else .lower

/-! ## What a round does -/

/-- What a trial means for a bracket, when `k` slopes had been computed before it. -/
def Bracket.settle (target : α) (b : Bracket α) (k : Nat) (trial : Trial α) : Round α :=
  match trial.slope? with
  | none => .narrowed (b.cutAt trial.length) k
  | some slope =>
    if !Scalar.isFinite slope then .narrowed (b.cutAt trial.length) (k + 1)
    else if Scalar.abs slope ≤ target then .found trial.length (k + 1)
    else if 0 < slope then .narrowed (b.moveUpper trial.length slope) (k + 1)
    else .narrowed (b.moveLower trial.length slope) (k + 1)

/-- A round tries a length and settles what follows. -/
theorem narrow_eq (ray : Ray α σ) (target : α) (b : Bracket α) (k : Nat) :
    narrow ray target b k = Run.ofExcept b.trial >>= fun next =>
      ray.probe next.1 >>= fun slope? =>
        pure (Bracket.settle target { b with repeats := next.2 } k ⟨next.1, slope?⟩) := by
  refine bind_congr fun next => ?_
  dsimp only
  rw [probe_bind]
  refine bind_congr fun slope? => ?_
  cases slope? with
  | none => rfl
  | some slope =>
    simp only [Bracket.settle]
    split
    · rfl
    · split
      · rfl
      · split <;> rfl

/-- The ways in which a trial moves an end of a bracket. -/
inductive Bracket.Moves (target : α) (b : Bracket α) : Trial α → Bracket α → Prop
  | outside {length : α} : Moves target b ⟨length, none⟩ (b.cutAt length)
  | infinite {length slope : α} (hslope : Scalar.isFinite slope = false) :
      Moves target b ⟨length, some slope⟩ (b.cutAt length)
  | positive {length slope : α} (hfin : Scalar.isFinite slope = true)
      (hlarge : ¬Scalar.abs slope ≤ target) (hpos : 0 < slope) :
      Moves target b ⟨length, some slope⟩ (b.moveUpper length slope)
  | negative {length slope : α} (hfin : Scalar.isFinite slope = true)
      (hlarge : ¬Scalar.abs slope ≤ target) (hneg : ¬0 < slope) :
      Moves target b ⟨length, some slope⟩ (b.moveLower length slope)

theorem Bracket.moves_of_settle {target : α} {b c : Bracket α} {k j : Nat} {trial : Trial α}
    (h : b.settle target k trial = .narrowed c j) : b.Moves target trial c := by
  obtain ⟨length, slope?⟩ := trial
  cases slope? with
  | none =>
    cases h
    exact .outside
  | some slope =>
    simp only [settle] at h
    split at h
    · cases h
      exact .infinite (by simpa using ‹(!Scalar.isFinite slope) = true›)
    · have hfin : Scalar.isFinite slope = true := by
        simpa using ‹¬(!Scalar.isFinite slope) = true›
      split at h
      · cases h
      · split at h
        · cases h
          exact .positive hfin ‹_› ‹_›
        · cases h
          exact .negative hfin ‹_› ‹_›

@[simp]
theorem Bracket.side_moveUpper (b : Bracket α) (length slope : α) :
    (b.moveUpper length slope).side = .upper := by
  unfold moveUpper
  split <;> rfl

@[simp]
theorem Bracket.side_moveLower (b : Bracket α) (length slope : α) :
    (b.moveLower length slope).side = .lower := by
  unfold moveLower
  split <;> rfl

namespace Bracket.Moves

variable {target : α} {b c : Bracket α} {trial : Trial α}

/-- A bracket remembers which end was moved last. -/
theorem side_eq (h : b.Moves target trial c) : c.side = trial.side := by
  cases h with
  | outside => rfl
  | infinite hslope => simp [Trial.side, hslope, cutAt]
  | positive hfin _ hpos => simp [Trial.side, hfin, hpos]
  | negative hfin _ hneg => simp [Trial.side, hfin, hneg]

/-- An end that moves again is counted. -/
theorem repeats_eq (h : b.Moves target trial c) (hagain : b.side = trial.side)
    (hmoves : trial.side ≠ .none) : c.repeats = b.repeats + 1 := by
  cases h with
  | outside => exact absurd rfl hmoves
  | infinite hslope => exact absurd (by simp [Trial.side, hslope]) hmoves
  | positive hfin _ hpos =>
    have hupper : b.side = .upper := by simpa [Trial.side, hfin, hpos] using hagain
    rw [moveUpper, if_pos hupper]
  | negative hfin _ hneg =>
    have hlower : b.side = .lower := by simpa [Trial.side, hfin, hneg] using hagain
    rw [moveLower, if_pos hlower]

/-- One end moves to the trial, and the other one stays where it is. -/
theorem ends (h : b.Moves target trial c) :
    c.lower = b.lower ∧ c.upper = trial.length ∨ c.lower = trial.length ∧ c.upper = b.upper := by
  cases h with
  | outside | infinite => exact .inl ⟨rfl, rfl⟩
  | positive => exact .inl ⟨b.lower_moveUpper _ _, b.upper_moveUpper _ _⟩
  | negative => exact .inr ⟨b.lower_moveLower _ _, b.upper_moveLower _ _⟩

end Bracket.Moves

/-! ## The loop -/

/-- The head of a round: how many rounds are left, the bracket, and how many slopes have been
computed. -/
structure Head (α : Type) where
  left : Nat
  bracket : Bracket α
  evaluations : Nat

/-- A round, with the bracket at its head and its trial. -/
structure Narrowing (α : Type) where
  bracket : Bracket α
  trial : Trial α

/-- What a round means for the loop. -/
def Narrowing.round (narrowing : Narrowing α) (left : Nat) :
    Round α → Run.Round (Head α) (Narrowing α) (Found α)
  | .found length k => .done (some narrowing) ⟨length, k⟩
  | .narrowed b k => .again narrowing ⟨left, b, k⟩

/-- One round of the second phase. -/
def turn (ray : Ray α σ) (target : α) (h : Head α) :
    Run α σ (Run.Round (Head α) (Narrowing α) (Found α)) :=
  match h.left with
  | 0 => return .done none ⟨h.bracket.lower, h.evaluations⟩
  | left + 1 => do
    if h.bracket.isNarrow then return .done none ⟨h.bracket.lower, h.evaluations⟩
    else
      let (length, repeats) ← Run.ofExcept h.bracket.trial
      let trial := ⟨length, ← ray.probe length⟩
      return Narrowing.round ⟨h.bracket, trial⟩ left
        (Bracket.settle target { h.bracket with repeats } h.evaluations trial)

/-- **The second phase repeats its rounds** until one of them ends it. -/
theorem refine_loops (ray : Ray α σ) (target : α) :
    Run.Loops (turn ray target) fun h => refine ray target h.left h.bracket h.evaluations := by
  rintro ⟨left, b, k⟩
  cases left with
  | zero => rfl
  | succ left =>
    simp only [turn, refine, narrow_eq]
    split
    · rfl
    · simp only [bind_assoc, pure_bind]
      refine bind_congr fun next => bind_congr fun slope? => ?_
      cases Bracket.settle target { b with repeats := next.2 } k ⟨next.1, slope?⟩ <;> rfl

/-- What a round does that the second phase goes on from. -/
structure Turns (ray : Ray α σ) (target : α) (h : Head α) (t : Session α σ)
    (narrowing : Narrowing α) (h' : Head α) (u : Session α σ) : Prop where
  bracket : narrowing.bracket = h.bracket
  probe : (ray.probe narrowing.trial.length).run t = .ok narrowing.trial.slope? u
  moves : ∃ repeats, h.bracket.trial = .ok (narrowing.trial.length, repeats) ∧
    Bracket.Moves target { h.bracket with repeats } narrowing.trial h'.bracket

variable {ray : Ray α σ} {target : α} {h h' : Head α} {s s₁ t u : Session α σ}
  {narrowing : Narrowing α} {narrowings : List (Narrowing α)}

theorem turns_of_run (hrun : (turn ray target h).run t = .ok (.again narrowing h') u) :
    Turns ray target h t narrowing h' u := by
  obtain ⟨left, b, k⟩ := h
  cases left with
  | zero => cases hrun
  | succ left =>
    simp only [turn] at hrun
    split at hrun
    · cases hrun
    · obtain ⟨⟨length, repeats⟩, htrial, hrun⟩ := Run.check_eq_ok hrun
      obtain ⟨slope?, u', hprobe, hrun⟩ := Run.bind_eq_ok hrun
      have hagain := EStateM.Result.ok.inj hrun
      cases hsettle : Bracket.settle target { b with repeats } k ⟨length, slope?⟩ with
      | found length j =>
        rw [hsettle] at hagain
        cases hagain.1
      | narrowed c j =>
        rw [hsettle] at hagain
        obtain ⟨hround, rfl⟩ := hagain
        cases hround
        exact ⟨rfl, hprobe, repeats, htrial, Bracket.moves_of_settle hsettle⟩

/-- The trials of the rounds follow those that were made before. -/
theorem Trials.path {trials : List (Trial α)} (hstart : Trials ray s trials s₁)
    (hpath : Run.Path (turn ray target) h s₁ narrowings h' t) :
    Trials ray s (trials ++ narrowings.map (·.trial)) t := by
  induction hpath with
  | start => simpa using hstart
  | again _ hrun ih =>
    rw [List.map_append, ← List.append_assoc]
    exact ih.next (turns_of_run hrun).probe

/-! ## Bisections -/

/-- The next trial is the middle of the bracket, not the secant. -/
def Bracket.Bisects (b : Bracket α) : Prop :=
  ∃ secant, b.secant = .ok secant ∧ (2 ≤ b.repeats ∨ ¬(b.lower < secant ∧ secant < b.upper))

theorem Bracket.bisects_iff {b : Bracket α} {secant : α} :
    (2 ≤ b.repeats || !(b.lower < secant && secant < b.upper)) = true ↔
      2 ≤ b.repeats ∨ ¬(b.lower < secant ∧ secant < b.upper) := by
  rw [Bool.or_eq_true, decide_eq_true_eq, Bool.not_eq_true', ← Bool.not_eq_true, Bool.and_eq_true,
    decide_eq_true_eq, decide_eq_true_eq]

theorem Bracket.Bisects.trial_eq {b : Bracket α} (h : b.Bisects) : b.trial = .ok (b.middle, 0) := by
  obtain ⟨secant, hsecant, hbisects⟩ := h
  rw [trial, hsecant]
  exact if_pos (bisects_iff.2 hbisects)

/-- Where the secant is tried, the count of repeats is small and stays as it is. -/
theorem Bracket.trial_of_not_bisects {b : Bracket α} {length : α} {repeats : Nat}
    (h : ¬b.Bisects) (htrial : b.trial = .ok (length, repeats)) :
    repeats = b.repeats ∧ b.repeats < 2 := by
  obtain ⟨secant, hsecant, htrial⟩ := Fault.bind_eq_ok htrial
  have hnot : ¬(2 ≤ b.repeats ∨ ¬(b.lower < secant ∧ secant < b.upper)) :=
    fun hbisects => h ⟨secant, hsecant, hbisects⟩
  rw [if_neg (mt bisects_iff.1 hnot)] at htrial
  cases htrial
  exact ⟨rfl, Nat.lt_of_not_le fun htwo => hnot (.inl htwo)⟩

/-- Rounds in a row that move the same end to a length with a slope. As long as none of them is a
bisection they are counted, but for the first one. -/
theorem streak_counted {side : Side} (hside : side ≠ .none)
    (hpath : Run.Path (turn ray target) h s narrowings h' t)
    (hmoves : ∀ n ∈ narrowings, n.trial.side = side)
    (hnone : ∀ n ∈ narrowings, ¬n.bracket.Bisects) :
    narrowings = [] ∨ h'.bracket.side = side ∧
      narrowings.length ≤ h'.bracket.repeats + 1 ∧ narrowings.length ≤ 3 := by
  induction hpath with
  | start => exact .inl rfl
  | @again earlier y z narrowing _ _ _ hrun ih =>
    obtain ⟨hbracket, -, repeats, htrial, hends⟩ := turns_of_run hrun
    have hlast : narrowing.trial.side = side := hmoves narrowing (by simp)
    have hbisects : ¬y.bracket.Bisects := hbracket ▸ hnone narrowing (by simp)
    obtain ⟨rfl, hlt⟩ := Bracket.trial_of_not_bisects hbisects htrial
    refine .inr ⟨hends.side_eq.trans hlast, ?_⟩
    rw [List.length_append, List.length_singleton]
    obtain rfl | ⟨hagain, hcount, -⟩ :=
      ih (fun n hn => hmoves n (by simp [hn])) fun n hn => hnone n (by simp [hn])
    · exact ⟨Nat.le_add_left _ _, by simp⟩
    · have hrepeats := hends.repeats_eq (hagain.trans hlast.symm) (hlast ▸ hside)
      dsimp only at hrepeats
      omega

/-- **Of four rounds in a row that move the same end to a length with a slope, one is a bisection.**
-/
theorem streak_bisects {side : Side} (hside : side ≠ .none)
    (hpath : Run.Path (turn ray target) h s narrowings h' t) (hlong : 3 < narrowings.length)
    (hmoves : ∀ n ∈ narrowings, n.trial.side = side) : ∃ n ∈ narrowings, n.bracket.Bisects := by
  refine Classical.byContradiction fun hnone => ?_
  obtain rfl | ⟨-, -, hshort⟩ :=
    streak_counted hside hpath hmoves fun n hn hbisects => hnone ⟨n, hn, hbisects⟩
  · cases hlong
  · omega

/-! ## Searches -/

/-- From the slope at its start on, a search has come in another session to the head of a round of
its second phase, after these trials; `k` slopes had been computed before. -/
def Refines (ray : Ray α σ) (rule : Rule α) (start : α) (k : Nat) (s : Session α σ)
    (trials : List (Trial α)) (h : Head α) (t : Session α σ) : Prop :=
  start < 0 ∧ ∃ earlier b j s₁ narrowings, trials = earlier ++ narrowings.map (·.trial) ∧
    Encloses ray rule start k s earlier b j s₁ ∧
    Run.Path (turn ray (rule.target start)) ⟨rule.rounds, b, j⟩ s₁ narrowings h t

namespace Refines

variable {rule : Rule α} {start : α} {k : Nat} {trials : List (Trial α)}

/-- The search goes on from the head that it has come to. -/
theorem run_descend (hrefines : Refines ray rule start k s trials h t) :
    (descend ray rule start k).run s =
      (refine ray (rule.target start) h.left h.bracket h.evaluations).run t := by
  obtain ⟨hneg, earlier, b, j, s₁, narrowings, -, hencloses, hpath⟩ := hrefines
  have hbracket : (bracket ray rule.shrink (rule.threshold * Scalar.abs start) rule.rounds 0 start
    rule.start k).run s = .ok (.between b j) s₁ := hencloses.run_bracket
  rw [descend, if_neg (by simpa using hneg), EStateM.run_bind, hbracket]
  exact hpath.run_loop (refine_loops ray (rule.target start))

/-- The trials were made one after another. -/
theorem tries (hrefines : Refines ray rule start k s trials h t) : Trials ray s trials t := by
  obtain ⟨-, earlier, b, j, s₁, narrowings, rfl, hencloses, hpath⟩ := hrefines
  exact hencloses.tries.path hpath

end Refines

/-- The slope at the start, with the number of slopes that were computed for it. -/
def opening (ray : Ray α σ) (d : Array α) : Option (Array α) → Run α σ (α × Nat)
  | some g => do return (← Run.ofExcept (product g d), 0)
  | none => do return (← ray.slope 0, 1)

/-- A search for callers has come from the session `s₀` in the session `t` to the head of a round of
its second phase. In the session `s` it knew the slope at the start, and then it made these trials.
-/
def Reaches {α σ : Type} [Numeral α] (gradient : VectorField α σ) (outside : Region α σ)
    (x d : Array α) (options : Options α) (known : Option (Array α)) (s₀ : Session α σ) (start : α)
    (s : Session α σ) (trials : List (Trial α)) (h : Head α) (t : Session α σ) : Prop :=
  (options.rule 0).check = .ok () ∧ ∃ k rounds,
    (opening (stretched gradient outside x d) d known).run s₀ = .ok (start, k) s ∧
    (options.rounds.toNumber >>= Number.toCount) = .ok rounds ∧
    Refines (stretched gradient outside x d) (options.rule rounds) start k s trials h t

/-- A search for callers goes on from the head that it has come to. -/
theorem Reaches.run_searchArrays {α σ : Type} [Numeral α] {gradient : VectorField α σ}
    {outside : Region α σ} {x d : Array α} {options : Options α} {known : Option (Array α)}
    {start : α} {trials : List (Trial α)} {h : Head α} {s₀ s t : Session α σ}
    (hreaches : Reaches gradient outside x d options known s₀ start s trials h t) :
    (searchArrays gradient x d options outside known).run s₀ =
      (refine (stretched gradient outside x d) (options.threshold * Scalar.abs start) h.left
        h.bracket h.evaluations).run t := by
  obtain ⟨hcheck, k, rounds, hopening, hrounds, hrefines⟩ := hreaches
  have hsearch : searchArrays gradient x d options outside known =
      Run.ofExcept (options.rule 0).check >>= fun _ =>
        opening (stretched gradient outside x d) d known >>= fun first =>
          if !decide (first.1 < 0) then pure ⟨0, first.2⟩
          else Run.ofExcept (options.rounds.toNumber >>= Number.toCount) >>= fun rounds =>
            descend (stretched gradient outside x d) (options.rule rounds) first.1 first.2 := by
    cases known with
    | some g => simp only [searchArrays, opening, bind_assoc, pure_bind]
    | none => simp only [searchArrays, opening, bind_assoc, pure_bind]
  rw [hsearch, hcheck, hrounds]
  change (opening (stretched gradient outside x d) d known >>= _).run s₀ = _
  rw [EStateM.run_bind, hopening]
  dsimp only
  rw [if_neg (by simpa using hrefines.1)]
  exact hrefines.run_descend

end Descent.Ray
