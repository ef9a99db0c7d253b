import Descent.Proofs.Ray.Samples

/-!
# Gradients are guarded by the domain

The calls that a search makes to the two functions it was given are written down as a list of
`Call`s. The list is `Guarded` if each gradient in it comes right after the question whether the
same point is outside the domain, at a point that is not.

* `searchArrays_guarded`: the calls of a search are guarded, but for the gradient at the start when
  that is not known, and the length found is zero or one whose gradient is among the guarded calls.
-/

namespace Descent.Ray

/-- A call to one of the functions that a search was given. -/
inductive Call (α : Type) where
  | outside (point : Array α)
  | gradient (point : Array α)

/-- Each gradient in a list of calls comes right after the question whether the same point is
outside the domain, and the answer there is that it is not. -/
def Guarded {α : Type} (isOutside : Array α → Bool) (calls : List (Call α)) : Prop :=
  ∀ before point after, calls = before ++ .gradient point :: after →
    isOutside point = false ∧ ∃ earlier, before = earlier ++ [.outside point]

namespace Guarded

variable {α : Type} {isOutside : Array α → Bool} {calls : List (Call α)}

theorem nil : Guarded isOutside [] := by
  intro before point after h
  simp at h

/-- One more call at the end of a guarded list. -/
theorem snoc (h : Guarded isOutside calls) {call : Call α}
    (hcall : ∀ point, call = .gradient point →
      isOutside point = false ∧ ∃ earlier, calls = earlier ++ [.outside point]) :
    Guarded isOutside (calls ++ [call]) := by
  intro before point after heq
  rcases List.eq_nil_or_concat after with rfl | ⟨after, last, rfl⟩
  · obtain ⟨rfl, hlast⟩ := List.append_inj' heq rfl
    exact hcall point (by simpa using hlast)
  · rw [List.concat_eq_append, ← List.cons_append, ← List.append_assoc] at heq
    obtain ⟨rfl, -⟩ := List.append_inj' heq rfl
    exact h before point after rfl

theorem outside (h : Guarded isOutside calls) (point : Array α) :
    Guarded isOutside (calls ++ [.outside point]) :=
  h.snoc fun _ h => by cases h

theorem gradient (h : Guarded isOutside calls) {point : Array α} (hin : isOutside point = false) :
    Guarded isOutside (calls ++ [.outside point] ++ [.gradient point]) := by
  refine (h.outside point).snoc fun other heq => ?_
  cases heq
  exact ⟨hin, calls, rfl⟩

end Guarded

/-- The functions of a search write their calls into the state of the callers, however they end, and
the question whether a point is outside always has the same answer. -/
structure Recording {α σ : Type} (calls : σ → List (Call α)) (gradient : VectorField α σ)
    (outside : Region α σ) (isOutside : Array α → Bool) : Prop where
  gradient : ∀ point old, Run.Triple (fun s => calls s.caller = old) (gradient point)
    (fun _ s => calls s.caller = old ++ [.gradient point])
    (fun _ s => calls s.caller = old ++ [.gradient point])
  outside : ∀ point old, Run.Triple (fun s => calls s.caller = old) (outside point)
    (fun out s => calls s.caller = old ++ [.outside point] ∧ out = isOutside point)
    (fun _ s => calls s.caller = old ++ [.outside point])

/-- The call before the first question about the domain: none if the gradient at the start is known,
and at most the one gradient at the start if it is not. -/
def IsStart {α : Type} [Scalar α] (x d : Array α) (known : Option (Array α))
    (first : List (Call α)) : Prop :=
  first = [] ∨ known = none ∧ ∃ point, pointAt x d 0 = .ok point ∧ first = [.gradient point]

section

variable {α σ : Type} [Numeral α] {calls : σ → List (Call α)} {gradient : VectorField α σ}
  {outside : Region α σ} {isOutside : Array α → Bool}

/-- A slope costs one gradient, at the point that belongs to its length. -/
theorem slope_stretched_triple (h : Recording calls gradient outside isOutside) (x d : Array α)
    (length : α) (old : List (Call α)) :
    Run.Triple (fun s => calls s.caller = old) ((stretched gradient outside x d).slope length)
      (fun _ s => ∃ point, pointAt x d length = .ok point ∧
        calls s.caller = old ++ [.gradient point])
      (fun _ s => calls s.caller = old ∨ ∃ point, pointAt x d length = .ok point ∧
        calls s.caller = old ++ [.gradient point]) := by
  refine Run.Triple.bind (R := fun point s => pointAt x d length = .ok point ∧ calls s.caller = old)
    (Run.Triple.ofExcept (fun point hp s hs => ⟨hp, hs⟩) (fun _ _ s hs => .inl hs)) fun point => ?_
  intro s ⟨hp, hs⟩
  have hgradient : Run.Triple (fun s => calls s.caller = old)
      (gradient.valueAt "gradient" (Vec.ofArray point))
      (fun _ s => ∃ point, pointAt x d length = .ok point ∧
        calls s.caller = old ++ [.gradient point])
      (fun _ s => calls s.caller = old ∨ ∃ point, pointAt x d length = .ok point ∧
        calls s.caller = old ++ [.gradient point]) := by
    refine Run.Triple.bind ((h.gradient point old).conseq (fun _ hs => hs) (fun _ _ hs => hs)
      (fun _ _ hs => .inr ⟨point, hp, hs⟩)) fun datum => ?_
    exact Run.Triple.ofExcept (fun _ _ _ hs => ⟨point, hp, hs⟩)
      (fun _ _ _ hs => .inr ⟨point, hp, hs⟩)
  refine Run.Triple.bind hgradient (fun g => ?_) s hs
  exact Run.Triple.ofExcept (fun _ _ _ hs => hs) (fun _ _ _ hs => .inr hs)

/-- The guarded calls of a search so far, after those in `old`: every sample has its gradient among
them. -/
def Logged (calls : σ → List (Call α)) (isOutside : Array α → Bool) (x d : Array α)
    (old : List (Call α)) (samples : List (Sample α)) (new : List (Call α)) (s : Session α σ) :
    Prop :=
  calls s.caller = old ++ new ∧ Guarded isOutside new ∧
    ∀ sample ∈ samples, ∃ point, pointAt x d sample.length = .ok point ∧ .gradient point ∈ new

/-- The functions of a recording lead from guarded calls to guarded calls. -/
theorem probed_of_recording (h : Recording calls gradient outside isOutside) (x d : Array α)
    (old : List (Call α)) :
    Probed (stretched gradient outside x d)
      (fun samples s => ∃ new, Logged calls isOutside x d old samples new s)
      (fun samples length s => ∃ new point, pointAt x d length = .ok point ∧
        isOutside point = false ∧ calls s.caller = old ++ (new ++ [.outside point]) ∧
        Guarded isOutside new ∧ ∀ sample ∈ samples, ∃ point,
          pointAt x d sample.length = .ok point ∧ .gradient point ∈ new)
      (fun _ s => ∃ new, calls s.caller = old ++ new ∧ Guarded isOutside new) := by
  refine ⟨fun samples length => ?_, fun samples length => ?_, ?_⟩
  · refine Run.Triple.bind (R := fun point s => pointAt x d length = .ok point ∧
      ∃ new, Logged calls isOutside x d old samples new s)
      (Run.Triple.ofExcept (fun point hp s hs => ⟨hp, hs⟩)
        (fun _ _ s ⟨new, hnew, hg, _⟩ => ⟨new, hnew, hg⟩)) fun point => ?_
    rintro s ⟨hp, new, hnew, hg, hmem⟩
    refine (h.outside point (old ++ new)).conseq (fun _ hs => hs) ?_ ?_ s hnew
    · rintro out s' ⟨hcalls, rfl⟩
      rw [List.append_assoc] at hcalls
      cases hin : isOutside point with
      | true =>
        refine ⟨new ++ [.outside point], hcalls, hg.outside point, fun sample hs => ?_⟩
        obtain ⟨point, hp, hin⟩ := hmem sample hs
        exact ⟨point, hp, List.mem_append_left _ hin⟩
      | false => exact ⟨new, point, hp, hin, hcalls, hg, hmem⟩
    · intro fault s' hcalls
      rw [List.append_assoc] at hcalls
      exact ⟨_, hcalls, hg.outside point⟩
  · rintro s ⟨new, point, hp, hin, hcalls, hg, hmem⟩
    refine (slope_stretched_triple h x d length _).conseq (fun _ hs => hs) ?_ ?_ s hcalls
    · rintro slope s' ⟨point', hp', hcalls'⟩
      cases hp.symm.trans hp'
      rw [List.append_assoc] at hcalls'
      refine ⟨_, hcalls', hg.gradient hin, fun sample hs => ?_⟩
      obtain rfl | hs := List.mem_cons.1 hs
      · exact ⟨point, hp, by simp⟩
      · obtain ⟨point, hp, hin⟩ := hmem sample hs
        exact ⟨point, hp, by simp [hin]⟩
    · rintro fault s' (hcalls' | ⟨point', hp', hcalls'⟩)
      · exact ⟨_, hcalls', hg.outside point⟩
      · cases hp.symm.trans hp'
        rw [List.append_assoc] at hcalls'
        exact ⟨_, hcalls', hg.gradient hin⟩
  · rintro samples fault s ⟨new, hnew, hg, _⟩
    exact ⟨new, hnew, hg⟩

/-- What the calls of a search look like, after those in `old`. -/
def Searched (calls : σ → List (Call α)) (isOutside : Array α → Bool) (x d : Array α)
    (known : Option (Array α)) (old new : List (Call α)) (s : Session α σ) : Prop :=
  ∃ first, calls s.caller = old ++ first ++ new ∧ IsStart x d known first ∧ Guarded isOutside new

/-- The part of a search that follows the slope at the start. -/
theorem descend_guarded (h : Recording calls gradient outside isOutside) (x d : Array α)
    (options : Options α) (known : Option (Array α)) (old first : List (Call α))
    (hfirst : IsStart x d known first) (slope : α) (k : Nat) :
    Run.Triple (fun s => calls s.caller = old ++ first)
      (do
        if !decide (slope < 0) then return ⟨0, k⟩
        else
          let rounds ← Run.ofExcept (options.rounds.toNumber >>= Number.toCount)
          descend (stretched gradient outside x d) (options.rule rounds) slope k)
      (fun found s => ∃ new, Searched calls isOutside x d known old new s ∧ (found.length = 0 ∨
        ∃ point, pointAt x d found.length = .ok point ∧ .gradient point ∈ new))
      (fun _ s => ∃ new, Searched calls isOutside x d known old new s) := by
  have hnone : ∀ {s : Session α σ}, calls s.caller = old ++ first →
      Searched calls isOutside x d known old [] s :=
    fun hs => ⟨first, by simpa using hs, hfirst, .nil⟩
  refine Run.Triple.ite (fun _ => ?_) fun _ => ?_
  · exact Run.Triple.pure fun s hs => ⟨[], hnone hs, .inl rfl⟩
  · refine Run.Triple.bind (R := fun _ s => calls s.caller = old ++ first)
      (Run.Triple.ofExcept (fun _ _ _ hs => hs) (fun _ _ _ hs => ⟨[], hnone hs⟩)) fun rounds => ?_
    refine (descend_triple (probed_of_recording h x d (old ++ first)) _ _ _).conseq
      (fun s hs => ⟨[], by simpa using hs, .nil, by simp⟩) ?_ ?_
    · rintro found s ⟨samples, ⟨new, hnew, hg, hmem⟩, ⟨hends, _⟩, _⟩
      refine ⟨new, ⟨first, hnew, hfirst, hg⟩, ?_⟩
      obtain h0 | ⟨slope, hsample, _⟩ := hends.acceptable
      · exact .inl h0
      · exact .inr (hmem _ hsample)
    · rintro fault s ⟨new, hnew, hg⟩
      exact ⟨new, first, hnew, hfirst, hg⟩

/-- **The calls of a search are guarded by the domain**, and the length found is zero or one whose
gradient is among the guarded calls. -/
theorem searchArrays_guarded (h : Recording calls gradient outside isOutside) (x d : Array α)
    (options : Options α) (known : Option (Array α)) (old : List (Call α)) :
    Run.Triple (fun s => calls s.caller = old)
      (searchArrays gradient x d options outside known)
      (fun found s => ∃ new, Searched calls isOutside x d known old new s ∧ (found.length = 0 ∨
        ∃ point, pointAt x d found.length = .ok point ∧ .gradient point ∈ new))
      (fun _ s => ∃ new, Searched calls isOutside x d known old new s) := by
  have hnone : ∀ {s : Session α σ}, calls s.caller = old →
      Searched calls isOutside x d known old [] s :=
    fun hs => ⟨[], by simpa using hs, .inl rfl, .nil⟩
  refine Run.Triple.bind (R := fun _ s => calls s.caller = old)
    (Run.Triple.ofExcept (fun _ _ _ hs => hs) (fun _ _ _ hs => ⟨[], hnone hs⟩)) fun _ => ?_
  cases known with
  | some g =>
    refine Run.Triple.bind (R := fun _ s => calls s.caller = old)
      (Run.Triple.ofExcept (fun _ _ _ hs => hs) (fun _ _ _ hs => ⟨[], hnone hs⟩)) fun slope => ?_
    refine Run.Triple.bind (R := fun start s => start = (slope, 0) ∧ calls s.caller = old)
      (Run.Triple.pure fun s hs => ⟨rfl, hs⟩) ?_
    rintro _ s ⟨rfl, hs⟩
    exact descend_guarded h x d options (some g) old [] (.inl rfl) slope 0 s (by simpa using hs)
  | none =>
    refine Run.Triple.bind ((slope_stretched_triple h x d 0 old).conseq (fun _ hs => hs)
      (fun _ _ hs => hs) ?_) fun slope => ?_
    · rintro fault s (hs | ⟨point, hp, hs⟩)
      · exact ⟨[], hnone hs⟩
      · exact ⟨[], [.gradient point], by simpa using hs, .inr ⟨rfl, point, hp, rfl⟩, .nil⟩
    · rintro s ⟨point, hp, hs⟩
      exact descend_guarded h x d options none old [.gradient point]
        (.inr ⟨rfl, point, hp, rfl⟩) slope 1 s hs

end

end Descent.Ray
