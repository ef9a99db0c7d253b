import Descent.Ray.Search
import Descent.Proofs.Run.Triple

/-!
# The lengths that a search tries

A search asks at each length whether the ray is outside the domain there, and computes the slope at
that same length next if it is not. `Ray.Probed` says this of the two functions of a ray, with an
assertion `I` that holds between two probes and an assertion `J` that holds when a length has just
been found inside:

* asking about a length leads from `I` to `I` if the length is outside, and to `J` if it is not;
* computing the slope at a length is known to be possible from `J` only, and leads back to `I`.

The slopes computed so far decide how a search goes on, but for the lengths that were found outside.
`Ray.Rule.Brackets` and `Ray.Rule.Narrows` are the states that its two phases can come to after some
samples, `Ray.Rule.Ends` the lengths that it can return. `bracket_triple`, `refine_triple` and
`descend_triple` say that a search comes to no other ones, that both phases keep to the order of the
probes, and that slopes are counted right.

* `Ray.Acceptable`: the length returned is zero or one whose slope was computed and is not known to
  lie beyond the minimum (`Ray.Rule.Ends.acceptable`);
* `search_yields_start`: the shortest search: the first length is inside and its slope is small.
-/

namespace Descent.Ray

/-- A length with the slope computed there. -/
structure Sample (α : Type) where
  length : α
  slope : α

variable {α σ : Type} [Scalar α]

/-! ## Acceptable lengths -/

/-- A length that a search may return: zero, or one whose slope was computed, is finite, and is
small or not positive. -/
def Acceptable (target : α) (samples : List (Sample α)) (length : α) : Prop :=
  length = 0 ∨ ∃ slope, ⟨length, slope⟩ ∈ samples ∧ Scalar.isFinite slope = true ∧
    (Scalar.abs slope ≤ target ∨ ¬0 < slope)

theorem Acceptable.cons {target : α} {samples : List (Sample α)} {length : α}
    (h : Acceptable target samples length) (sample : Sample α) :
    Acceptable target (sample :: samples) length := by
  obtain rfl | ⟨slope, hmem, hslope⟩ := h
  · exact .inl rfl
  · exact .inr ⟨slope, List.mem_cons_of_mem _ hmem, hslope⟩

theorem Acceptable.head {target slope : α} {samples : List (Sample α)} {length : α}
    (hfin : Scalar.isFinite slope = true) (h : Scalar.abs slope ≤ target ∨ ¬0 < slope) :
    Acceptable target (⟨length, slope⟩ :: samples) length :=
  .inr ⟨slope, List.mem_cons_self, hfin, h⟩

/-! ## What a search can come to -/

namespace Rule

/-- The slope to reach, after one at the start. -/
def target (rule : Rule α) (start : α) : α :=
  rule.threshold * Scalar.abs start

variable (rule : Rule α) (start : α)

/-- A slope that ends a search: it is small enough. -/
structure Small (slope : α) : Prop where
  finite : Scalar.isFinite slope = true
  small : Scalar.abs slope ≤ rule.target start

/-- A slope that does not end a search. -/
structure Large (slope : α) : Prop where
  finite : Scalar.isFinite slope = true
  large : ¬Scalar.abs slope ≤ rule.target start

/-- The states of the first phase after some samples, the last one first: the last length with a
negative slope, the slope there, and the length to try next. -/
inductive Brackets : List (Sample α) → (lower lowerSlope length : α) → Prop
  | start : Brackets [] 0 start rule.start
  | outside {samples : List (Sample α)} {lower lowerSlope length : α}
      (h : Brackets samples lower lowerSlope length) :
      Brackets samples lower lowerSlope (lower + rule.shrink * (length - lower))
  | infinite {samples : List (Sample α)} {lower lowerSlope length slope : α}
      (h : Brackets samples lower lowerSlope length) (hslope : Scalar.isFinite slope = false) :
      Brackets (⟨length, slope⟩ :: samples) lower lowerSlope
        (lower + rule.shrink * (length - lower))
  | negative {samples : List (Sample α)} {lower lowerSlope length slope : α}
      (h : Brackets samples lower lowerSlope length) (hslope : rule.Large start slope)
      (hneg : ¬0 < slope) : Brackets (⟨length, slope⟩ :: samples) length slope (length * 2.0)

/-- The states of the second phase. -/
inductive Narrows : List (Sample α) → Bracket α → Prop
  | between {samples : List (Sample α)} {lower lowerSlope length slope : α}
      (h : rule.Brackets start samples lower lowerSlope length) (hslope : rule.Large start slope)
      (hpos : 0 < slope) :
      Narrows (⟨length, slope⟩ :: samples) ⟨lower, lowerSlope, length, slope, .none, 0⟩
  | outside {samples : List (Sample α)} {b : Bracket α} {length : α} {repeats : Nat}
      (h : Narrows samples b) (htrial : b.trial = .ok (length, repeats)) :
      Narrows samples ({ b with repeats }.cutAt length)
  | infinite {samples : List (Sample α)} {b : Bracket α} {length slope : α} {repeats : Nat}
      (h : Narrows samples b) (htrial : b.trial = .ok (length, repeats))
      (hslope : Scalar.isFinite slope = false) :
      Narrows (⟨length, slope⟩ :: samples) ({ b with repeats }.cutAt length)
  | positive {samples : List (Sample α)} {b : Bracket α} {length slope : α} {repeats : Nat}
      (h : Narrows samples b) (htrial : b.trial = .ok (length, repeats))
      (hslope : rule.Large start slope) (hpos : 0 < slope) :
      Narrows (⟨length, slope⟩ :: samples) ({ b with repeats }.moveUpper length slope)
  | negative {samples : List (Sample α)} {b : Bracket α} {length slope : α} {repeats : Nat}
      (h : Narrows samples b) (htrial : b.trial = .ok (length, repeats))
      (hslope : rule.Large start slope) (hneg : ¬0 < slope) :
      Narrows (⟨length, slope⟩ :: samples) ({ b with repeats }.moveLower length slope)

/-- The lengths that a search can return after some samples. -/
inductive Ends : List (Sample α) → α → Prop
  | early {samples : List (Sample α)} {lower lowerSlope length slope : α}
      (h : rule.Brackets start samples lower lowerSlope length) (hslope : rule.Small start slope) :
      Ends (⟨length, slope⟩ :: samples) length
  | late {samples : List (Sample α)} {b : Bracket α} {length slope : α} {repeats : Nat}
      (h : rule.Narrows start samples b) (htrial : b.trial = .ok (length, repeats))
      (hslope : rule.Small start slope) : Ends (⟨length, slope⟩ :: samples) length
  | exhausted {samples : List (Sample α)} {lower lowerSlope length : α}
      (h : rule.Brackets start samples lower lowerSlope length) : Ends samples lower
  | lower {samples : List (Sample α)} {b : Bracket α} (h : rule.Narrows start samples b) :
      Ends samples b.lower

end Rule

@[simp]
theorem Bracket.lower_moveUpper (b : Bracket α) (length slope : α) :
    (b.moveUpper length slope).lower = b.lower := by
  unfold moveUpper
  split <;> rfl

@[simp]
theorem Bracket.upper_moveUpper (b : Bracket α) (length slope : α) :
    (b.moveUpper length slope).upper = length := by
  unfold moveUpper
  split <;> rfl

@[simp]
theorem Bracket.upper_moveLower (b : Bracket α) (length slope : α) :
    (b.moveLower length slope).upper = b.upper := by
  unfold moveLower
  split <;> rfl

@[simp]
theorem Bracket.lower_moveLower (b : Bracket α) (length slope : α) :
    (b.moveLower length slope).lower = length := by
  unfold moveLower
  split <;> rfl

namespace Rule

variable {rule : Rule α} {start : α} {samples : List (Sample α)}

theorem Brackets.acceptable {lower lowerSlope length : α}
    (h : rule.Brackets start samples lower lowerSlope length) :
    Acceptable (rule.target start) samples lower := by
  induction h with
  | start => exact .inl rfl
  | outside _ ih => exact ih
  | infinite _ _ ih => exact ih.cons _
  | negative _ hslope hneg => exact .head hslope.finite (.inr hneg)

theorem Narrows.acceptable {b : Bracket α} (h : rule.Narrows start samples b) :
    Acceptable (rule.target start) samples b.lower := by
  induction h with
  | between h => exact h.acceptable.cons _
  | outside _ _ ih => exact ih
  | infinite _ _ _ ih => exact ih.cons _
  | positive _ _ _ _ ih =>
    rw [Bracket.lower_moveUpper]
    exact ih.cons _
  | negative _ _ hslope hneg =>
    rw [Bracket.lower_moveLower]
    exact .head hslope.finite (.inr hneg)

/-- **The length returned is acceptable.** -/
theorem Ends.acceptable {length : α} (h : rule.Ends start samples length) :
    Acceptable (rule.target start) samples length := by
  cases h with
  | early _ hslope => exact .head hslope.finite (.inl hslope.small)
  | late _ _ hslope => exact .head hslope.finite (.inl hslope.small)
  | exhausted h => exact h.acceptable
  | lower h => exact h.acceptable

end Rule

/-! ## A search comes to nothing else -/

/-- How the functions of a ray lead from one assertion to another; `samples` are the slopes computed
so far, the last one first. -/
structure Probed (ray : Ray α σ) (I : List (Sample α) → Session α σ → Prop)
    (J : List (Sample α) → α → Session α σ → Prop) (E : Fault → Session α σ → Prop) : Prop where
  outside : ∀ samples length, Run.Triple (I samples) (ray.outside length)
    (fun out s => if out then I samples s else J samples length s) E
  slope : ∀ samples length, Run.Triple (J samples length) (ray.slope length)
    (fun slope s => I (⟨length, slope⟩ :: samples) s) E
  fault : ∀ samples fault s, I samples s → E fault s

/-- What the first phase leads to, after `base` slopes besides those of the samples. -/
def Bracketing.Agrees (rule : Rule α) (start : α) (base : Nat) (samples : List (Sample α)) :
    Bracketing α → Prop
  | .found length k | .exhausted length k =>
    rule.Ends start samples length ∧ k = samples.length + base
  | .between b k => rule.Narrows start samples b ∧ k = samples.length + base

/-- What one round of the second phase leads to. -/
def Round.Agrees (rule : Rule α) (start : α) (base : Nat) (samples : List (Sample α)) :
    Round α → Prop
  | .found length k => rule.Ends start samples length ∧ k = samples.length + base
  | .narrowed b k => rule.Narrows start samples b ∧ k = samples.length + base

/-- The length found is one that the search can return, and the slopes are counted. -/
def Found.Agrees (rule : Rule α) (start : α) (base : Nat) (samples : List (Sample α))
    (found : Found α) : Prop :=
  rule.Ends start samples found.length ∧ found.evaluations = samples.length + base

variable {ray : Ray α σ} {I : List (Sample α) → Session α σ → Prop}
  {J : List (Sample α) → α → Session α σ → Prop} {E : Fault → Session α σ → Prop} {rule : Rule α}
  {start : α}

omit [Scalar α] in
/-- One more sample is one more slope. -/
theorem succ_length_add (sample : Sample α) (samples : List (Sample α)) (base : Nat) :
    samples.length + base + 1 = (sample :: samples).length + base := by
  rw [List.length_cons]
  omega

omit [Scalar α] in
/-- A probe: if the length is outside, nothing is computed; else its slope is the next sample. -/
theorem probe_triple {β : Type} (h : Probed ray I J E) {samples : List (Sample α)} {length : α}
    {out : Run α σ β} {inside : α → Run α σ β} {Q : β → Session α σ → Prop}
    (hout : Run.Triple (I samples) out Q E)
    (hin : ∀ slope, Run.Triple (I (⟨length, slope⟩ :: samples)) (inside slope) Q E) :
    Run.Triple (I samples)
      (do if ← ray.outside length then out else inside (← ray.slope length)) Q E := by
  refine Run.Triple.bind (h.outside samples length) fun b => ?_
  cases b with
  | true => exact hout
  | false => exact Run.Triple.bind (h.slope samples length) hin

/-- **The first phase** goes from state to state and ends in one of its ways. -/
theorem bracket_triple (h : Probed ray I J E) (rule : Rule α) (start : α) (base : Nat) :
    ∀ (rounds : Nat) (lower lowerSlope length : α) (samples : List (Sample α)),
      rule.Brackets start samples lower lowerSlope length →
      Run.Triple (I samples)
        (bracket ray rule.shrink (rule.target start) rounds lower lowerSlope length
          (samples.length + base))
        (fun r s => ∃ samples, I samples s ∧ r.Agrees rule start base samples) E := by
  intro rounds
  induction rounds with
  | zero =>
    intro lower _ _ samples hstate
    exact Run.Triple.pure fun s hs => ⟨samples, hs, .exhausted hstate, rfl⟩
  | succ rounds ih =>
    intro lower lowerSlope length samples hstate
    refine probe_triple h (ih _ _ _ samples hstate.outside) fun slope => ?_
    rw [succ_length_add ⟨length, slope⟩]
    split
    · rename_i hinfinite
      exact ih _ _ _ _ (hstate.infinite (by simpa using hinfinite))
    · rename_i hfin
      have hfin : Scalar.isFinite slope = true := by simpa using hfin
      split
      · rename_i hsmall
        exact Run.Triple.pure fun s hs => ⟨_, hs, .early hstate ⟨hfin, hsmall⟩, rfl⟩
      · rename_i hlarge
        split
        · rename_i hpos
          exact Run.Triple.pure fun s hs => ⟨_, hs, .between hstate ⟨hfin, hlarge⟩ hpos, rfl⟩
        · rename_i hneg
          exact ih _ _ _ _ (hstate.negative ⟨hfin, hlarge⟩ hneg)

/-- One round of the second phase. -/
theorem narrow_triple (h : Probed ray I J E) (base : Nat) (b : Bracket α)
    (samples : List (Sample α)) (hstate : rule.Narrows start samples b) :
    Run.Triple (I samples) (narrow ray (rule.target start) b (samples.length + base))
      (fun r s => ∃ samples, I samples s ∧ r.Agrees rule start base samples) E := by
  refine Run.Triple.bind (R := fun trial s => b.trial = .ok trial ∧ I samples s)
    (Run.Triple.ofExcept (fun _ htrial _ hs => ⟨htrial, hs⟩)
      fun fault _ s hs => h.fault samples fault s hs) ?_
  rintro ⟨length, repeats⟩ s ⟨htrial, hs⟩
  refine probe_triple h (Run.Triple.pure fun s hs => ⟨samples, hs, hstate.outside htrial, rfl⟩)
    (fun slope => ?_) s hs
  rw [succ_length_add ⟨length, slope⟩]
  split
  · rename_i hinfinite
    exact Run.Triple.pure fun s hs =>
      ⟨_, hs, hstate.infinite htrial (by simpa using hinfinite), rfl⟩
  · rename_i hfin
    have hfin : Scalar.isFinite slope = true := by simpa using hfin
    split
    · rename_i hsmall
      exact Run.Triple.pure fun s hs => ⟨_, hs, .late hstate htrial ⟨hfin, hsmall⟩, rfl⟩
    · rename_i hlarge
      split
      · rename_i hpos
        exact Run.Triple.pure fun s hs =>
          ⟨_, hs, hstate.positive htrial ⟨hfin, hlarge⟩ hpos, rfl⟩
      · rename_i hneg
        exact Run.Triple.pure fun s hs =>
          ⟨_, hs, hstate.negative htrial ⟨hfin, hlarge⟩ hneg, rfl⟩

/-- **The second phase.** -/
theorem refine_triple (h : Probed ray I J E) (base : Nat) :
    ∀ (rounds : Nat) (b : Bracket α) (samples : List (Sample α)),
      rule.Narrows start samples b →
      Run.Triple (I samples) (refine ray (rule.target start) rounds b (samples.length + base))
        (fun found s => ∃ samples, I samples s ∧ found.Agrees rule start base samples) E := by
  intro rounds
  induction rounds with
  | zero =>
    intro b samples hstate
    exact Run.Triple.pure fun s hs => ⟨samples, hs, .lower hstate, rfl⟩
  | succ rounds ih =>
    intro b samples hstate
    unfold refine
    split
    · exact Run.Triple.pure fun s hs => ⟨samples, hs, .lower hstate, rfl⟩
    · refine Run.Triple.bind (narrow_triple h base b samples hstate) fun r => ?_
      intro s hs
      obtain ⟨samples, hI, hr⟩ := hs
      cases r with
      | found length k => exact ⟨samples, hI, hr⟩
      | narrowed b k =>
        obtain ⟨hstate, rfl⟩ := hr
        exact ih b samples hstate s hI

/-- The search from a start where the slope is known, when `base` slopes have been computed. -/
theorem descend_triple (h : Probed ray I J E) (rule : Rule α) (slope : α) (base : Nat) :
    Run.Triple (I []) (descend ray rule slope base)
      (fun found s => ∃ samples, I samples s ∧ found.Agrees rule slope base samples ∧
        (¬slope < 0 → samples = [] ∧ found.length = 0)) E := by
  unfold descend
  split
  · exact Run.Triple.pure fun s hs =>
      ⟨[], hs, ⟨.exhausted .start, by simp⟩, fun _ => ⟨rfl, rfl⟩⟩
  · rename_i hneg
    have hneg : slope < 0 := by simpa using hneg
    have hb := bracket_triple h rule slope base rule.rounds 0 slope rule.start [] .start
    rw [List.length_nil, Nat.zero_add] at hb
    refine Run.Triple.bind hb fun r => ?_
    intro s hs
    obtain ⟨samples, hI, hr⟩ := hs
    cases r with
    | found length k => exact ⟨samples, hI, hr, fun h => absurd hneg h⟩
    | exhausted lower k => exact ⟨samples, hI, hr, fun h => absurd hneg h⟩
    | between b k =>
      obtain ⟨hstate, rfl⟩ := hr
      have hf := refine_triple h base rule.rounds b samples hstate
      refine hf.conseq (fun _ hs => hs) ?_ (fun _ _ hs => hs) s hI
      rintro found s ⟨samples, hI, hfound⟩
      exact ⟨samples, hI, hfound, fun h => absurd hneg h⟩

/-- A search along a ray whose slope is asked for only where `S` holds: the length found is zero or
one where `S` holds. -/
theorem search_keeps {K : Invariant α σ} {S : α → Prop}
    (hout : ∀ length, (ray.outside length).Keeps K fun out => out = false → S length)
    (hslope : ∀ length, S length → (ray.slope length).Keeps K fun _ => True) (rule : Rule α)
    (slope : α) :
    (search ray rule (some slope)).Keeps K fun found => found.length = 0 ∨ S found.length := by
  have h : Probed ray (fun samples s => s.Has K ∧ ∀ sample ∈ samples, S sample.length)
      (fun samples length s => (s.Has K ∧ ∀ sample ∈ samples, S sample.length) ∧ S length)
      (fun _ s => s.Has K) := by
    refine ⟨fun samples length s hs => ?_, fun samples length s hs => ?_, fun _ _ _ hs => hs.1⟩
    · have h₁ := hout length s hs.1
      cases hr : (ray.outside length).run s with
      | error fault s' =>
        rw [hr] at h₁
        exact h₁
      | ok out s' =>
        rw [hr] at h₁
        cases out with
        | true => exact ⟨h₁.1, hs.2⟩
        | false => exact ⟨⟨h₁.1, hs.2⟩, h₁.2 rfl⟩
    · refine (hslope length hs.2).conseq (fun _ hs => hs) (fun slope s' hs' => ?_)
        (fun _ _ hs => hs) s hs.1.1
      refine ⟨hs'.1, fun sample hmem => ?_⟩
      obtain rfl | hmem := List.mem_cons.1 hmem
      · exact hs.2
      · exact hs.1.2 sample hmem
  refine Run.Keeps.bind (Run.Keeps.ofExcept fun _ _ => trivial) fun _ _ => ?_
  refine (descend_triple h rule slope 0).conseq (fun s hs => ⟨hs, by simp⟩) ?_ (fun _ _ hs => hs)
  rintro found s ⟨samples, ⟨hs, hS⟩, ⟨hends, _⟩, _⟩
  refine ⟨hs, ?_⟩
  obtain h0 | ⟨_, hmem, _⟩ := hends.acceptable
  · exact .inl h0
  · exact .inr (hS _ hmem)

/-- A first length inside the domain whose slope is small ends the search, after one more
evaluation. -/
theorem descend_yields_start {K : Invariant α σ} {rule : Rule α} {slope last : α}
    (hrounds : 0 < rule.rounds) (hslope : slope < 0)
    (hinside : (ray.outside rule.start).Yields K false)
    (hlast : (ray.slope rule.start).Yields K last) (hfinite : Scalar.isFinite last = true)
    (hsmall : Scalar.abs last ≤ rule.threshold * Scalar.abs slope) (k : Nat) :
    (descend ray rule slope k).Yields K ⟨rule.start, k + 1⟩ := by
  obtain ⟨rounds, hsucc⟩ := Nat.exists_eq_add_one.2 hrounds
  have hbracket : (bracket ray rule.shrink (rule.threshold * Scalar.abs slope) rule.rounds 0 slope
      rule.start k).Yields K (.found rule.start (k + 1)) := by
    rw [hsucc, bracket]
    refine .bind hinside (.bind hlast ?_)
    rw [hfinite, if_neg (by simp), if_pos hsmall]
    exact .pure
  have hdescends : ¬(!decide (slope < 0)) = true := by simpa using hslope
  rw [descend, if_neg hdescends]
  exact .bind hbracket .pure

/-- A first length inside the domain whose slope is small is found after one evaluation. -/
theorem search_yields_start {K : Invariant α σ} {rule : Rule α} {slope last : α}
    (hcheck : rule.check = .ok ()) (hrounds : 0 < rule.rounds) (hslope : slope < 0)
    (hinside : (ray.outside rule.start).Yields K false)
    (hlast : (ray.slope rule.start).Yields K last) (hfinite : Scalar.isFinite last = true)
    (hsmall : Scalar.abs last ≤ rule.threshold * Scalar.abs slope) :
    (search ray rule (some slope)).Yields K ⟨rule.start, 1⟩ := by
  refine .bind (.ofExcept hcheck) ?_
  exact descend_yields_start hrounds hslope hinside hlast hfinite hsmall 0

end Descent.Ray
