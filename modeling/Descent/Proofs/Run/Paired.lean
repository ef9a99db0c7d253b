import Descent.Proofs.Run.Triple

/-!
# What two runs lead to

`Run.Paired P first second Q E excused` says what is known of the results and the sessions of two
runs, or of the faults and the sessions in which they end. After an excused fault of the first run
nothing is asked of the second. There is a rule for each way to make a run of smaller ones, so two
programs of one shape are compared part by part.

Comparisons, runs in lock-step, couplings and runs with the same effects are pairings, and have
their rules from here.
-/

namespace Descent.Run

variable {α σ β γ δ ε : Type}

/-- From sessions with `P` both runs return, and their results and sessions have `Q`, or both end in
a fault, and their faults and sessions have `E`; or the first one ends in an excused fault. -/
def Paired (P : Session α σ → Session α σ → Prop) (first : Run α σ β) (second : Run α σ γ)
    (Q : β → γ → Session α σ → Session α σ → Prop)
    (E : Fault → Fault → Session α σ → Session α σ → Prop) (excused : Fault → Prop) : Prop :=
  ∀ s t, P s t → match first.run s, second.run t with
    | .ok b s', .ok c t' => Q b c s' t'
    | .error f s', .error g t' => excused f ∨ E f g s' t'
    | .error f _, .ok _ _ => excused f
    | .ok _ _, .error _ _ => False

/-- Pairings in which the faults themselves do not matter. -/
theorem paired_iff {P E : Session α σ → Session α σ → Prop} {first : Run α σ β}
    {second : Run α σ γ} {Q : β → γ → Session α σ → Session α σ → Prop} :
    Paired P first second Q (fun _ _ => E) (fun _ => False) ↔
      ∀ s t, P s t → match first.run s, second.run t with
        | .ok b s', .ok c t' => Q b c s' t'
        | .error _ s', .error _ t' => E s' t'
        | _, _ => False := by
  refine forall₃_congr fun s t _ => ?_
  cases first.run s <;> cases second.run t <;> simp only [false_or]

namespace Paired

variable {P P' : Session α σ → Session α σ → Prop} {first : Run α σ β} {second : Run α σ γ}
  {Q Q' : β → γ → Session α σ → Session α σ → Prop}
  {E E' : Fault → Fault → Session α σ → Session α σ → Prop} {excused : Fault → Prop}

theorem pure {b : β} {c : γ} (h : ∀ s t, P s t → Q b c s t) :
    Paired P (pure b) (pure c) Q E excused :=
  h

theorem throw {f g : Fault} (h : ∀ s t, P s t → E f g s t) :
    Paired P (throw f : Run α σ β) (throw g : Run α σ γ) Q E excused :=
  fun s t hst => .inr (h s t hst)

/-- Nothing is asked of the second run if the first one ends in an excused fault. -/
theorem refused {f : Fault} (h : excused f) :
    Paired P (MonadExcept.throw f : Run α σ β) second Q E excused := by
  intro s t _
  show match EStateM.Result.error f s, second.run t with
    | .ok b s', .ok c t' => Q b c s' t'
    | .error f s', .error g t' => excused f ∨ E f g s' t'
    | .error f _, .ok _ _ => excused f
    | .ok _ _, .error _ _ => False
  cases second.run t with
  | ok c t' => exact h
  | error g t' => exact .inl h

theorem bind {next : β → Run α σ δ} {next' : γ → Run α σ ε}
    {T : δ → ε → Session α σ → Session α σ → Prop} (h : Paired P first second Q E excused)
    (hnext : ∀ b c, Paired (Q b c) (next b) (next' c) T E excused) :
    Paired P (first >>= next) (second >>= next') T E excused := by
  intro s t hst
  have h₁ := h s t hst
  simp only [EStateM.run_bind]
  cases hs : first.run s <;> cases ht : second.run t <;> rw [hs, ht] at h₁
  case ok.ok b s' c t' => exact hnext b c s' t' h₁
  case ok.error => exact h₁.elim
  case error.error => exact h₁
  case error.ok f s' c t' =>
    -- whatever the second run comes to after the excused fault
    dsimp only
    cases (next' c).run t' with
    | ok d t'' => exact h₁
    | error g t'' => exact .inl h₁

theorem conseq (h : Paired P first second Q E excused) (hP : ∀ s t, P' s t → P s t)
    (hQ : ∀ b c s t, Q b c s t → Q' b c s t) (hE : ∀ f g s t, E f g s t → E' f g s t) :
    Paired P' first second Q' E' excused := by
  intro s t hst
  have h₁ := h s t (hP s t hst)
  cases hs : first.run s <;> cases ht : second.run t <;> rw [hs, ht] at h₁
  case ok.ok => exact hQ _ _ _ _ h₁
  case error.error => exact h₁.imp_right (hE _ _ _ _)
  all_goals exact h₁

/-- What is known apart from the sessions. -/
theorem assuming {p : Prop} (h : p → Paired P first second Q E excused) :
    Paired (fun s t => P s t ∧ p) first second Q E excused :=
  fun s t hst => h hst.2 s t hst.1

theorem ite {p q : Prop} [Decidable p] [Decidable q] {other : Run α σ β} {other' : Run α σ γ}
    (hiff : p ↔ q) (hpos : p → Paired P first second Q E excused)
    (hneg : ¬p → Paired P other other' Q E excused) :
    Paired P (if p then first else other) (if q then second else other') Q E excused := by
  by_cases hp : p
  · rw [if_pos hp, if_pos (hiff.1 hp)]
    exact hpos hp
  · rw [if_neg hp, if_neg fun hq => hp (hiff.2 hq)]
    exact hneg hp

/-- Two runs that start with the same check go on with what the check found. -/
theorem check {e : Except Fault δ} {next : δ → Run α σ β} {next' : δ → Run α σ γ}
    (hE : ∀ f s t, P s t → E f f s t)
    (h : ∀ d, e = .ok d → Paired P (next d) (next' d) Q E excused) :
    Paired P (ofExcept e >>= next) (ofExcept e >>= next') Q E excused := by
  cases e with
  | ok d => exact h d rfl
  | error f => exact throw (hE f)

theorem ofExcept {e : Except Fault β} {Q : β → β → Session α σ → Session α σ → Prop}
    (hE : ∀ f s t, P s t → E f f s t) (h : ∀ b, e = .ok b → ∀ s t, P s t → Q b b s t) :
    Paired P (ofExcept e) (ofExcept e) Q E excused := by
  rw [← bind_pure (Run.ofExcept e)]
  exact check hE fun b hb => pure (h b hb)

/-- Vectors whose entries are found alike. -/
theorem ofFnM {n : Nat} {f f' : Fin n → Run α σ β}
    (h : ∀ i, Paired P (f i) (f' i) (fun b c s t => P s t ∧ b = c) E excused) :
    Paired P (Vector.ofFnM f) (Vector.ofFnM f') (fun v w s t => P s t ∧ v = w) E excused := by
  induction n with
  | zero =>
    rw [Vector.ofFnM_zero, Vector.ofFnM_zero]
    exact pure fun _ _ hst => ⟨hst, rfl⟩
  | succ n ih =>
    rw [Vector.ofFnM_succ, Vector.ofFnM_succ]
    refine bind (ih fun i => h i.castSucc) fun v w => assuming fun hv => ?_
    refine bind (h (Fin.last n)) fun b c => assuming fun hb => pure fun _ _ hst => ⟨hst, ?_⟩
    rw [hv, hb]

end Paired

end Descent.Run
