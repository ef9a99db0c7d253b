import Descent.Proofs.Run.Paired

/-!
# Two runs in lock-step

`Run.Related J R first second`: from sessions in the relation `J` both runs return results in the
relation `R`, or both end in a fault, which need not be the same; either way their sessions are in
the relation `J` again. Runs in lock-step are paired (`Run.related_iff`) and have the rules of
pairings. `Run.Respects J run`: a run is in lock-step with itself.
-/

namespace Descent.Run

variable {α σ β γ δ ε : Type}

/-- From sessions in relation both runs return results in relation, or both end in a fault, and
their sessions are in relation again. -/
def Related (J : Session α σ → Session α σ → Prop) (R : β → γ → Prop) (first : Run α σ β)
    (second : Run α σ γ) : Prop :=
  ∀ s t, J s t → match first.run s, second.run t with
    | .ok b s', .ok c t' => J s' t' ∧ R b c
    | .error _ s', .error _ t' => J s' t'
    | _, _ => False

/-- To a run the sessions in relation are the same. -/
def Respects (J : Session α σ → Session α σ → Prop) (run : Run α σ β) : Prop :=
  Related J Eq run run

/-- Two runs from sessions in relation that return, return the same. -/
def Agree (J : Session α σ → Session α σ → Prop) (first second : Run α σ β) : Prop :=
  ∀ s t s' t' b c, J s t → first.run s = .ok b s' → second.run t = .ok c t' → b = c

/-- Runs in lock-step are paired, whatever their faults. -/
theorem related_iff {J : Session α σ → Session α σ → Prop} {R : β → γ → Prop} {first : Run α σ β}
    {second : Run α σ γ} : Related J R first second ↔
      Paired J first second (fun b c s t => J s t ∧ R b c) (fun _ _ => J) fun _ => False :=
  paired_iff.symm

namespace Related

variable {J : Session α σ → Session α σ → Prop} {R : β → γ → Prop} {T : δ → ε → Prop}
  {first : Run α σ β} {second : Run α σ γ}

theorem pure {b : β} {c : γ} (h : R b c) : Related J R (pure b) (pure c) :=
  related_iff.2 (.pure fun _ _ hst => ⟨hst, h⟩)

theorem throw {fault fault' : Fault} :
    Related J R (throw fault : Run α σ β) (throw fault' : Run α σ γ) :=
  related_iff.2 (.throw fun _ _ hst => hst)

theorem bind {next : β → Run α σ δ} {next' : γ → Run α σ ε} (h : Related J R first second)
    (hnext : ∀ b c, R b c → Related J T (next b) (next' c)) :
    Related J T (first >>= next) (second >>= next') :=
  related_iff.2 ((related_iff.1 h).bind fun b c =>
    .assuming fun hbc => related_iff.1 (hnext b c hbc))

theorem mono {R' : β → γ → Prop} (h : Related J R first second) (hR : ∀ b c, R b c → R' b c) :
    Related J R' first second := by
  rw [← bind_pure first, ← bind_pure second]
  exact h.bind fun b c hbc => pure (hR b c hbc)

/-- What the second run returns may be turned into something else. -/
theorem pure_right {f : γ → δ} {R' : β → δ → Prop} (h : Related J R first second)
    (hR : ∀ b c, R b c → R' b (f c)) :
    Related J R' first (second >>= fun c => Pure.pure (f c)) := by
  rw [← bind_pure first]
  exact h.bind fun b c hbc => pure (hR b c hbc)

theorem ite {p q : Prop} [Decidable p] [Decidable q] {other : Run α σ β} {other' : Run α σ γ}
    (hiff : p ↔ q) (hpos : p → Related J R first second) (hneg : ¬p → Related J R other other') :
    Related J R (if p then first else other) (if q then second else other') :=
  related_iff.2 (.ite hiff (fun hp => related_iff.1 (hpos hp)) fun hp => related_iff.1 (hneg hp))

/-- Two runs that start with the same check go on with what the check found. -/
theorem check {e : Except Fault δ} {next : δ → Run α σ β} {next' : δ → Run α σ γ}
    (h : ∀ d, e = .ok d → Related J R (next d) (next' d)) :
    Related J R (ofExcept e >>= next) (ofExcept e >>= next') :=
  related_iff.2 (.check (fun _ _ _ hst => hst) fun d hd => related_iff.1 (h d hd))

theorem ofExcept {e : Except Fault β} {R : β → β → Prop} (h : ∀ b, e = .ok b → R b b) :
    Related J R (ofExcept e) (ofExcept e) :=
  related_iff.2 (.ofExcept (fun _ _ _ hst => hst) fun b hb _ _ hst => ⟨hst, h b hb⟩)

/-- Vectors whose entries are found in lock-step. -/
theorem ofFnM {n : Nat} {f f' : Fin n → Run α σ β} (h : ∀ i, Related J Eq (f i) (f' i)) :
    Related J Eq (Vector.ofFnM f) (Vector.ofFnM f') :=
  related_iff.2 (.ofFnM fun i => related_iff.1 (h i))

/-- A run is in lock-step with itself. -/
theorem refl (run : Run α σ β) : Related Eq Eq run run := by
  rintro s _ rfl
  cases run.run s <;> simp

/-- The second run may be replaced by one in lock-step with it from the same session. -/
theorem trans {third : Run α σ δ} {S : γ → δ → Prop} (h : Related J R first second)
    (hthird : Related Eq S second third) :
    Related J (fun b d => ∃ c, R b c ∧ S c d) first third := by
  intro s t hst
  have h₁ := h s t hst
  have h₂ := hthird t t rfl
  cases hs : first.run s <;> cases ht : second.run t <;> cases hd : third.run t <;>
    simp only [hs, ht, hd] at h₁ h₂ ⊢
  · obtain ⟨rfl, h₂⟩ := h₂
    exact ⟨h₁.1, _, h₁.2, h₂⟩
  · exact h₂ ▸ h₁

theorem symm (h : Related J R first second) :
    Related (fun s t => J t s) (fun c b => R b c) second first := by
  intro t s hst
  have h₁ := h s t hst
  cases hs : first.run s <;> cases ht : second.run t <;> simp only [hs, ht] at h₁ ⊢ <;> exact h₁

/-- What is known of runs in lock-step that have returned. -/
theorem of_ok (h : Related J R first second) {s t s' t' : Session α σ} {b : β} {c : γ}
    (hst : J s t) (hs : first.run s = .ok b s') (ht : second.run t = .ok c t') :
    J s' t' ∧ R b c := by
  have := h s t hst
  rwa [hs, ht] at this

end Related

end Descent.Run
