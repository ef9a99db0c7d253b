import Descent.Proofs.Ray.Samples
import Descent.Proofs.Run.Loop

/-!
# The trials of a search

A search tries one length after another: it asks whether the length is outside the domain and, if it
is not, computes the slope there. `Ray.probe` is such a trial. Both phases of a search are loops
whose rounds are one trial each, and a loop that writes its trials down tells what the search has
seen. This module does so for the first phase.

* `Ray.Trials`: trials that follow one another, from one session to another.
* `Ray.stride`: one round of the first phase, with its trial; `Ray.bracket_loops`: the first phase
  repeats its rounds until one of them ends it.
* `Ray.path_brackets`: the lengths that it comes to belong to the slopes in its trials.
* `Ray.Encloses`: the first phase ends with a bracket; `Ray.Encloses.run_bracket`.
-/

namespace Descent.Ray

/-- A length that was tried, with the slope there; none where the length is outside the domain. -/
structure Trial (α : Type) where
  length : α
  slope? : Option α

/-- The trial at a length where the slope was computed. -/
def Sample.trial {α : Type} (sample : Sample α) : Trial α :=
  ⟨sample.length, some sample.slope⟩

section

variable {α σ : Type}

/-- Tries a length: the slope there, none if it is outside the domain. -/
def probe (ray : Ray α σ) (length : α) : Run α σ (Option α) := do
  if ← ray.outside length then return none else return some (← ray.slope length)

/-- What was tried, one length after another, from one session to another. -/
inductive Trials (ray : Ray α σ) (s : Session α σ) : List (Trial α) → Session α σ → Prop
  | start : Trials ray s [] s
  | next {trials : List (Trial α)} {t u : Session α σ} {trial : Trial α}
      (h : Trials ray s trials t)
      (hprobe : (ray.probe trial.length).run t = .ok trial.slope? u) :
      Trials ray s (trials ++ [trial]) u

/-- What goes on with the slope at a length, unless that is outside, goes on with a trial. -/
theorem probe_bind {β : Type} (ray : Ray α σ) (length : α) (out : Run α σ β)
    (inside : α → Run α σ β) :
    (do if ← ray.outside length then out else inside (← ray.slope length)) =
      ray.probe length >>= fun
        | none => out
        | some slope => inside slope := by
  rw [probe, bind_assoc]
  refine bind_congr fun out => ?_
  cases out with
  | true => rfl
  | false => simp only [Bool.false_eq_true, if_false, bind_assoc, pure_bind]

end

variable {α σ : Type} [Scalar α]

/-! ## The first phase -/

/-- The head of a round of the first phase: how many rounds are left, the last length with a
negative slope, the slope there, the length to try next, and how many slopes have been computed. -/
structure Stride (α : Type) where
  left : Nat
  lower : α
  lowerSlope : α
  length : α
  evaluations : Nat

/-- The next length lies between the last one with a negative slope and this one. -/
def Stride.shorten (shrink : α) (a : Stride α) (left evaluations : Nat) : Stride α :=
  ⟨left, a.lower, a.lowerSlope, a.lower + shrink * (a.length - a.lower), evaluations⟩

/-- What the slope at its length means for a round: the first phase goes on from another head, or it
has ended. -/
def Stride.settle (shrink target : α) (a : Stride α) (left : Nat) :
    Option α → Stride α ⊕ Bracketing α
  | none => .inl (a.shorten shrink left a.evaluations)
  | some slope =>
    if !Scalar.isFinite slope then .inl (a.shorten shrink left (a.evaluations + 1))
    else if Scalar.abs slope ≤ target then .inr (.found a.length (a.evaluations + 1))
    else if 0 < slope then
      .inr (.between ⟨a.lower, a.lowerSlope, a.length, slope, .none, 0⟩ (a.evaluations + 1))
    else .inl ⟨left, a.length, slope, a.length * 2.0, a.evaluations + 1⟩

/-- What a round means for the loop. -/
def Trial.round (trial : Trial α) :
    Stride α ⊕ Bracketing α → Run.Round (Stride α) (Trial α) (Bracketing α)
  | .inl a => .again trial a
  | .inr r => .done (some trial) r

/-- One round of the first phase. -/
def stride (ray : Ray α σ) (shrink target : α) (a : Stride α) :
    Run α σ (Run.Round (Stride α) (Trial α) (Bracketing α)) :=
  match a.left with
  | 0 => return .done none (.exhausted a.lower a.evaluations)
  | left + 1 => do
    let slope? ← ray.probe a.length
    return Trial.round ⟨a.length, slope?⟩ (a.settle shrink target left slope?)

/-- **The first phase repeats its rounds** until one of them ends it. -/
theorem bracket_loops (ray : Ray α σ) (shrink target : α) :
    Run.Loops (stride ray shrink target) fun a =>
      bracket ray shrink target a.left a.lower a.lowerSlope a.length a.evaluations := by
  rintro ⟨left, lower, lowerSlope, length, k⟩
  cases left with
  | zero => rfl
  | succ left =>
    simp only [stride, bracket, probe_bind, bind_assoc, pure_bind]
    refine bind_congr fun slope? => ?_
    cases slope? with
    | none => rfl
    | some slope =>
      simp only [Stride.settle]
      split
      · rfl
      · split
        · rfl
        · split <;> rfl

variable {ray : Ray α σ} {shrink target : α} {a b : Stride α} {c : Bracket α} {k j : Nat}
  {s s₁ t : Session α σ} {trial : Trial α} {trials : List (Trial α)} {rule : Rule α} {start : α}

/-- A round that the first phase goes on from tries its length and settles what follows. -/
theorem stride_again (hrun : (stride ray shrink target a).run s = .ok (.again trial b) t) :
    trial.length = a.length ∧ (ray.probe trial.length).run s = .ok trial.slope? t ∧
      ∃ left, a.settle shrink target left trial.slope? = .inl b := by
  obtain ⟨left, lower, lowerSlope, length, k⟩ := a
  cases left with
  | zero => cases hrun
  | succ left =>
    obtain ⟨slope?, u, hprobe, hrun⟩ := Run.bind_eq_ok hrun
    obtain ⟨hround, rfl⟩ := EStateM.Result.ok.inj hrun
    cases hsettle : Stride.settle shrink target ⟨left + 1, lower, lowerSlope, length, k⟩ left
        slope? with
    | inr r =>
      rw [hsettle] at hround
      cases hround
    | inl b =>
      rw [hsettle] at hround
      cases hround
      exact ⟨rfl, hprobe, left, hsettle⟩

/-- A round that the first phase ends with at a bracket tries the upper end, where the slope is
positive. -/
theorem stride_between
    (hrun : (stride ray shrink target a).run s = .ok (.done (some trial) (.between c j)) t) :
    (ray.probe trial.length).run s = .ok trial.slope? t ∧ c.lower = a.lower ∧
      c.upper = a.length ∧ trial = ⟨c.upper, some c.upperSlope⟩ ∧ 0 < c.upperSlope := by
  obtain ⟨left, lower, lowerSlope, length, k⟩ := a
  cases left with
  | zero => cases hrun
  | succ left =>
    obtain ⟨slope?, u, hprobe, hrun⟩ := Run.bind_eq_ok hrun
    obtain ⟨hround, rfl⟩ := EStateM.Result.ok.inj hrun
    cases slope? with
    | none => cases hround
    | some slope =>
      simp only [Stride.settle] at hround
      split at hround
      · cases hround
      · split at hround
        · cases hround
        · split at hround
          · cases hround
            exact ⟨hprobe, rfl, rfl, rfl, ‹_›⟩
          · cases hround

/-- The next head belongs to one more slope, or to the same ones. -/
theorem Stride.brackets_of_settle {samples : List (Sample α)} {left : Nat} {slope? : Option α}
    (hsettle : a.settle rule.shrink (rule.target start) left slope? = .inl b)
    (ha : rule.Brackets start samples a.lower a.lowerSlope a.length) :
    ∃ more, rule.Brackets start (more ++ samples) b.lower b.lowerSlope b.length ∧
      ∀ sample ∈ more, sample.trial = ⟨a.length, slope?⟩ := by
  cases slope? with
  | none =>
    cases hsettle
    exact ⟨[], ha.outside, nofun⟩
  | some slope =>
    have hone : ∀ sample ∈ [(⟨a.length, slope⟩ : Sample α)],
        sample.trial = ⟨a.length, some slope⟩ := by simp [Sample.trial]
    simp only [settle] at hsettle
    split at hsettle
    · cases hsettle
      exact ⟨_, ha.infinite (by simpa using ‹(!Scalar.isFinite slope) = true›), hone⟩
    · have hfin : Scalar.isFinite slope = true := by
        simpa using ‹¬(!Scalar.isFinite slope) = true›
      split at hsettle
      · cases hsettle
      · split at hsettle
        · cases hsettle
        · cases hsettle
          exact ⟨_, ha.negative ⟨hfin, ‹_›⟩ ‹_›, hone⟩

/-- The rounds of the first phase try one length after another. -/
theorem path_tries (hpath : Run.Path (stride ray shrink target) a s trials b t) :
    Trials ray s trials t := by
  induction hpath with
  | start => exact .start
  | again _ hrun ih => exact ih.next (stride_again hrun).2.1

/-- The head of a search that starts with the slope `start`, when `k` slopes have been computed. -/
def Rule.opening (rule : Rule α) (start : α) (k : Nat) : Stride α :=
  ⟨rule.rounds, 0, start, rule.start, k⟩

/-- **The lengths that the first phase comes to** belong to the slopes in its trials. -/
theorem path_brackets
    (hpath : Run.Path (stride ray rule.shrink (rule.target start)) (rule.opening start k) s trials
      a t) :
    ∃ samples, rule.Brackets start samples a.lower a.lowerSlope a.length ∧
      ∀ sample ∈ samples, sample.trial ∈ trials := by
  induction hpath with
  | start => exact ⟨[], .start, nofun⟩
  | @again _ _ _ trial _ _ _ hrun ih =>
    obtain ⟨samples, hbrackets, hsamples⟩ := ih
    obtain ⟨hlength, -, left, hsettle⟩ := stride_again hrun
    obtain ⟨more, hbrackets, hmore⟩ := Stride.brackets_of_settle hsettle hbrackets
    refine ⟨_, hbrackets, fun sample hmem => ?_⟩
    obtain hmem | hmem := List.mem_append.1 hmem
    · have htrial : sample.trial = trial := by rw [hmore sample hmem, ← hlength]
      exact List.mem_append_right _ (List.mem_singleton.2 htrial)
    · exact List.mem_append_left _ (hsamples sample hmem)

/-- From the slope at its start on, the first phase of a search has led from one session to another,
where it ends with a bracket; these were its trials. -/
def Encloses (ray : Ray α σ) (rule : Rule α) (start : α) (k : Nat) (s : Session α σ)
    (trials : List (Trial α)) (c : Bracket α) (j : Nat) (t : Session α σ) : Prop :=
  ∃ earlier last a s₁, trials = earlier ++ [last] ∧
    Run.Path (stride ray rule.shrink (rule.target start)) (rule.opening start k) s earlier a s₁ ∧
    (stride ray rule.shrink (rule.target start) a).run s₁ = .ok (.done (some last) (.between c j)) t

namespace Encloses

theorem run_bracket (h : Encloses ray rule start k s trials c j t) :
    (bracket ray rule.shrink (rule.target start) rule.rounds 0 start rule.start k).run s =
      .ok (.between c j) t := by
  obtain ⟨earlier, last, a, s₁, -, hpath, hlast⟩ := h
  exact hpath.run_done (bracket_loops ray rule.shrink (rule.target start)) hlast

/-- The trials were made one after another. -/
theorem tries (h : Encloses ray rule start k s trials c j t) : Trials ray s trials t := by
  obtain ⟨earlier, last, a, s₁, rfl, hpath, hlast⟩ := h
  exact (path_tries hpath).next (stride_between hlast).1

/-- The bracket belongs to the slopes in the trials, and the slope at its upper end is one of them.
-/
theorem brackets (h : Encloses ray rule start k s trials c j t) :
    ∃ samples lowerSlope, rule.Brackets start samples c.lower lowerSlope c.upper ∧
      (∀ sample ∈ samples, sample.trial ∈ trials) ∧
      ⟨c.upper, some c.upperSlope⟩ ∈ trials ∧ 0 < c.upperSlope := by
  obtain ⟨earlier, last, a, s₁, rfl, hpath, hlast⟩ := h
  obtain ⟨samples, hbrackets, hsamples⟩ := path_brackets hpath
  obtain ⟨-, hlower, hupper, rfl, hpos⟩ := stride_between hlast
  refine ⟨samples, a.lowerSlope, ?_, fun sample hmem => ?_, by simp, hpos⟩
  · rwa [hlower, hupper]
  · exact List.mem_append_left _ (hsamples sample hmem)

end Encloses

end Descent.Ray
