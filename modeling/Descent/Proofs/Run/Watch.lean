import Descent.Proofs.Run.Comparison
import Descent.Proofs.Run.Lockstep

/-!
# Two sessions watched

Two runs are watched that may write different debug lines and evaluate different objectives. The
functions of a caller look at a part of its state, where they may also write down their calls; the
points at which an objective was evaluated are listed in another part.

* `Watch`: what is watched; `Watch.Alike`: sessions that differ in nothing that functions see;
* `Watch.Hides`: a run that always returns and leaves nothing to be seen but the points at which the
  objective was evaluated;
* `Run.Coupled`: what is known of two sessions after two runs, where it depends on their results.
-/

namespace Descent

variable {α σ τ β γ δ ε : Type}

/-! ## Relations that depend on results -/

/-- From sessions with `P` both runs return, and their results and sessions have `Q`, or both end in
a fault and in sessions with `E`. -/
def Run.Coupled (P : Session α σ → Session α σ → Prop) (first : Run α σ β) (second : Run α σ γ)
    (Q : β → γ → Session α σ → Session α σ → Prop) (E : Session α σ → Session α σ → Prop) : Prop :=
  ∀ s t, P s t → match first.run s, second.run t with
    | .ok b s', .ok c t' => Q b c s' t'
    | .error _ s', .error _ t' => E s' t'
    | _, _ => False

/-- Couplings are pairings in which the faults themselves do not matter. -/
theorem Run.coupled_iff {P E : Session α σ → Session α σ → Prop} {first : Run α σ β}
    {second : Run α σ γ} {Q : β → γ → Session α σ → Session α σ → Prop} :
    Run.Coupled P first second Q E ↔
      Run.Paired P first second Q (fun _ _ => E) fun _ => False :=
  Run.paired_iff.symm

namespace Run.Coupled

variable {P P' : Session α σ → Session α σ → Prop} {first : Run α σ β} {second : Run α σ γ}
  {Q Q' : β → γ → Session α σ → Session α σ → Prop} {E E' : Session α σ → Session α σ → Prop}

theorem pure {b : β} {c : γ} (h : ∀ s t, P s t → Q b c s t) :
    Coupled P (pure b) (pure c) Q E :=
  coupled_iff.2 (.pure h)

theorem throw {fault fault' : Fault} (h : ∀ s t, P s t → E s t) :
    Coupled P (throw fault : Run α σ β) (throw fault' : Run α σ γ) Q E :=
  coupled_iff.2 (.throw h)

theorem bind {next : β → Run α σ δ} {next' : γ → Run α σ ε}
    {T : δ → ε → Session α σ → Session α σ → Prop} (h : Coupled P first second Q E)
    (hnext : ∀ b c, Coupled (Q b c) (next b) (next' c) T E) :
    Coupled P (first >>= next) (second >>= next') T E :=
  coupled_iff.2 ((coupled_iff.1 h).bind fun b c => coupled_iff.1 (hnext b c))

theorem conseq (h : Coupled P first second Q E) (hP : ∀ s t, P' s t → P s t)
    (hQ : ∀ b c s t, Q b c s t → Q' b c s t) (hE : ∀ s t, E s t → E' s t) :
    Coupled P' first second Q' E' :=
  coupled_iff.2 ((coupled_iff.1 h).conseq hP hQ fun _ _ => hE)

/-- Less is said of runs that end in a fault. -/
theorem faults (h : Coupled P first second Q E) (hE : ∀ s t, E s t → E' s t) :
    Coupled P first second Q E' :=
  h.conseq (fun _ _ hst => hst) (fun _ _ _ _ hst => hst) hE

theorem of_related {J : Session α σ → Session α σ → Prop} {R : β → γ → Prop}
    (h : Related J R first second) : Coupled J first second (fun b c s t => R b c ∧ J s t) J :=
  conseq (Q := fun b c s t => J s t ∧ R b c) h (fun _ _ hst => hst) (fun _ _ _ _ hst => hst.symm)
    fun _ _ hst => hst

/-- What is known apart from the sessions. -/
theorem assuming {p : Prop} (h : p → Coupled P first second Q E) :
    Coupled (fun s t => p ∧ P s t) first second Q E :=
  fun s t hst => h hst.1 s t hst.2

theorem ite {p q : Prop} [Decidable p] [Decidable q] {other : Run α σ β} {other' : Run α σ γ}
    (hiff : p ↔ q) (hpos : p → Coupled P first second Q E)
    (hneg : ¬p → Coupled P other other' Q E) :
    Coupled P (if p then first else other) (if q then second else other') Q E :=
  coupled_iff.2 (.ite hiff (fun hp => coupled_iff.1 (hpos hp)) fun hp => coupled_iff.1 (hneg hp))

/-- Two runs that start with the same check go on with what the check found. -/
theorem check {e : Except Fault δ} {next : δ → Run α σ β} {next' : δ → Run α σ γ}
    (hE : ∀ s t, P s t → E s t) (h : ∀ d, e = .ok d → Coupled P (next d) (next' d) Q E) :
    Coupled P (ofExcept e >>= next) (ofExcept e >>= next') Q E :=
  coupled_iff.2 (.check (fun _ => hE) fun d hd => coupled_iff.1 (h d hd))

/-- What is known of the sessions that the runs returned from. -/
theorem returned {T : Session α σ → Session α σ → Prop} (h : Coupled P first second Q E) :
    Coupled (fun s t => T s t ∧ P s t) first second
      (fun b c s' t' => (∃ s t, T s t ∧ first.run s = .ok b s' ∧ second.run t = .ok c t') ∧
        Q b c s' t') E := by
  rintro s t ⟨hT, hst⟩
  have h₁ := h s t hst
  cases hs : first.run s <;> cases ht : second.run t <;> rw [hs, ht] at h₁
  · exact ⟨⟨s, t, hT, hs, ht⟩, h₁⟩
  · exact h₁
  · exact h₁
  · exact h₁

/-- If the first run returns, the second does. -/
theorem of_ok (h : Coupled P first second Q E) {s t s' : Session α σ} {b : β} (hst : P s t)
    (hs : first.run s = .ok b s') : ∃ c t', second.run t = .ok c t' ∧ Q b c s' t' := by
  have h₁ := h s t hst
  rw [hs] at h₁
  cases ht : second.run t <;> rw [ht] at h₁
  · exact ⟨_, _, rfl, h₁⟩
  · exact h₁.elim

end Run.Coupled

/-! ## What is watched -/

/-- What is watched: the part of the callers' state that functions see, the points at which an
objective was evaluated, and which debug lines are written in a first and in a second session. -/
structure Watch (α σ τ : Type) where
  seen : σ → τ
  asked : σ → List (Array α)
  on : Logging.Source → Bool
  on' : Logging.Source → Bool

namespace Watch

/-- Two sessions that differ in nothing that functions see, in which objectives were evaluated at
the points of two lists. -/
structure Alike (w : Watch α σ τ) (old old' : List (Array α)) (s t : Session α σ) : Prop where
  listens : s.listens = w.on
  listens' : t.listens = w.on'
  tables : s.tables = t.tables
  seen : w.seen s.caller = w.seen t.caller
  asked : w.asked s.caller = old
  asked' : w.asked t.caller = old'

/-- To a run sessions that are alike are the same. -/
def Respects (w : Watch α σ τ) (run : Run α σ β) : Prop :=
  ∀ old old', run.Respects (w.Alike old old')

/-- From every session the run returns. Nothing can be seen of it afterwards, but that it has
evaluated the objective at these points. -/
def Hides (w : Watch α σ τ) (run : Run α σ β) (points : List (Array α)) : Prop :=
  ∀ s, ∃ b s', run.run s = .ok b s' ∧ s'.listens = s.listens ∧ s'.tables = s.tables ∧
    w.seen s'.caller = w.seen s.caller ∧ w.asked s'.caller = w.asked s.caller ++ points

variable {w : Watch α σ τ} {old old' : List (Array α)} {s t : Session α σ}

namespace Hides

variable {run : Run α σ β} {points : List (Array α)}

theorem pure {b : β} : w.Hides (pure b : Run α σ β) [] :=
  fun s => ⟨b, s, rfl, rfl, rfl, rfl, (List.append_nil _).symm⟩

theorem bind {next : β → Run α σ γ} {more : List (Array α)} (h : w.Hides run points)
    (hnext : ∀ b, w.Hides (next b) more) : w.Hides (run >>= next) (points ++ more) := by
  intro s
  obtain ⟨b, s₁, hr, hlistens, htables, hseen, hasked⟩ := h s
  obtain ⟨c, s₂, hr₂, hlistens₂, htables₂, hseen₂, hasked₂⟩ := hnext b s₁
  refine ⟨c, s₂, ?_, hlistens₂.trans hlistens, htables₂.trans htables, hseen₂.trans hseen, ?_⟩
  · rw [EStateM.run_bind, hr]
    exact hr₂
  · rw [hasked₂, hasked, List.append_assoc]

/-- Debug lines are not seen. -/
theorem debug (source : Logging.Source) (line : Unit → String) :
    w.Hides (Run.debug source line) [] := by
  intro s
  cases h : s.logging.isEnabled source.name Logging.Level.debug with
  | true =>
    refine ⟨(), s.logged ⟨source.name, Logging.Level.debug, line ()⟩, ?_,
      funext (s.listens_logged _), rfl, rfl, (List.append_nil _).symm⟩
    simp [Run.debug, Run.debugEnabled, h, Session.logged]
  | false =>
    refine ⟨(), s, ?_, rfl, rfl, rfl, (List.append_nil _).symm⟩
    simp [Run.debug, Run.debugEnabled, h]

theorem ofFnM {n : Nat} {f : Fin n → Run α σ β} (h : ∀ i, w.Hides (f i) []) :
    w.Hides (Vector.ofFnM f) [] := by
  induction n with
  | zero =>
    rw [Vector.ofFnM_zero]
    exact pure
  | succ n ih =>
    rw [Vector.ofFnM_succ]
    exact bind (ih fun i => h i.castSucc) fun v => bind (h (Fin.last n)) fun b => pure

/-- In one of two sessions that are alike. -/
theorem coupled {other : Run α σ γ} {points' : List (Array α)} (h : w.Hides run points)
    (hother : w.Hides other points') :
    Run.Coupled (w.Alike old old') run other
      (fun _ _ => w.Alike (old ++ points) (old' ++ points')) fun _ _ => False := by
  intro s t hst
  obtain ⟨b, s', hr, hlistens, htables, hseen, hasked⟩ := h s
  obtain ⟨c, t', ho, hlistens', htables', hseen', hasked'⟩ := hother t
  rw [hr, ho]
  exact ⟨hlistens.trans hst.listens, hlistens'.trans hst.listens',
    htables.trans (hst.tables.trans htables'.symm), hseen.trans (hst.seen.trans hseen'.symm),
    hasked.trans (hst.asked ▸ rfl), hasked'.trans (hst.asked' ▸ rfl)⟩

end Hides

/-- Debug lines may differ. -/
theorem debug_related (source : Logging.Source) (line line' : Unit → String) :
    Run.Related (w.Alike old old') Eq (Run.debug source line) (Run.debug source line') := by
  refine (Hides.coupled (Hides.debug source line) (Hides.debug source line')).conseq
    (fun _ _ hst => hst) (fun _ _ s t hst => ⟨?_, rfl⟩) fun _ _ hfalse => hfalse.elim
  rwa [List.append_nil, List.append_nil] at hst

end Watch

end Descent
