import Descent.Proofs.Run.Triple

/-!
# Loops

A loop repeats a round from state to state until a round is done. What happens in a round is its
event; the last round may have one as well.

* `Run.Loops round loop`: the run `loop` repeats `round`, as long as it takes.
* `Run.Path`: the rounds that a loop has gone through, with the state and the session it has come
  to. `Path.run_loop`: there the loop goes on as it would have from the start.
* `Run.Descends round measure`: every event uses up the measure, so `Loops.exists_last`: every loop
  comes to a last round.
* `Loops.triple`, `Loops.keeps`: what every round keeps a loop keeps.
-/

namespace Descent.Run

variable {α σ β S E R : Type}

/-- How a round ends: the loop goes on from a state, or it is done. -/
inductive Round (S E R : Type) where
  | again (event : E) (state : S)
  /-- A last round may be done before anything has happened in it. -/
  | done (last : Option E) (result : R)

/-- A loop does not go on from a round that is done. -/
theorem Round.done_ne_again {last : Option E} {result : R} {event : E} {state : S} :
    (done last result : Round S E R) ≠ again event state :=
  nofun

/-- What has happened in a round. -/
def Round.events : Round S E R → List E
  | again event _ => [event]
  | done last _ => last.toList

/-- What a round leaves of a measure. -/
def Round.left (measure : S → Nat) : Round S E R → Nat
  | again _ state => measure state
  | done _ _ => 0

/-- The loop goes on from state to state until a round is done. -/
def Loops (round : S → Run α σ (Round S E R)) (loop : S → Run α σ R) : Prop :=
  ∀ x, loop x = round x >>= fun
    | .again _ y => loop y
    | .done _ result => pure result

/-- Every event uses up some of a measure. -/
def Descends (round : S → Run α σ (Round S E R)) (measure : S → Nat) : Prop :=
  ∀ x, (round x).Keeps Invariant.none fun r => r.events.length + r.left measure ≤ measure x

/-- The events of a loop from a state and a session on, with the state and the session that it has
come to. -/
inductive Path (round : S → Run α σ (Round S E R)) (x : S) (s : Session α σ) :
    List E → S → Session α σ → Prop
  | start : Path round x s [] x s
  | again {events : List E} {y z : S} {event : E} {s₁ s₂ : Session α σ}
      (path : Path round x s events y s₁) (next : (round y).run s₁ = .ok (.again event z) s₂) :
      Path round x s (events ++ [event]) z s₂

variable {round : S → Run α σ (Round S E R)} {loop : S → Run α σ R} {measure : S → Nat} {x y : S}
  {s s₁ s₂ : Session α σ} {events : List E}

namespace Path

/-- The run of a loop goes on from where its path has come to. -/
theorem run_loop (hloop : Loops round loop) (h : Path round x s events y s₁) :
    (loop x).run s = (loop y).run s₁ := by
  induction h with
  | start => rfl
  | again _ next ih => rw [ih, hloop, EStateM.run_bind, next]

/-- A loop ends with a round that is done. -/
theorem run_done (hloop : Loops round loop) {last : Option E} {result : R}
    (h : Path round x s events y s₁) (hlast : (round y).run s₁ = .ok (.done last result) s₂) :
    (loop x).run s = .ok result s₂ := by
  rw [h.run_loop hloop, hloop, EStateM.run_bind, hlast]
  rfl

/-- What holds at the start and is kept by every round holds at the end of a path. -/
theorem invariant {P : List E → S → Prop} (h : Path round x s events y s₁) (hstart : P [] x)
    (hround : ∀ events y, P events y → (round y).Keeps Invariant.none fun r =>
      ∀ event z, r = .again event z → P (events ++ [event]) z) : P events y := by
  induction h with
  | start => exact hstart
  | again _ next ih => exact ((hround _ _ ih).of_ok trivial next).2 _ _ rfl

/-- A path whose measure allows no infinite one can be followed to a round that does not go on. -/
theorem exists_last (hround : Descends round measure) (h : Path round x s events y s₁) :
    ∃ events y s₁, Path round x s events y s₁ ∧
      ∀ event z s₂, (round y).run s₁ ≠ .ok (.again event z) s₂ := by
  induction hm : measure y using Nat.strongRecOn generalizing events y s₁ with
  | _ m ih =>
    by_cases hnext : ∃ event z s₂, (round y).run s₁ = .ok (.again event z) s₂
    · obtain ⟨event, z, s₂, hnext⟩ := hnext
      have hle := ((hround y).of_ok trivial hnext).2
      simp only [Round.events, Round.left, List.length_singleton] at hle
      exact ih (measure z) (by omega) (h.again hnext) rfl
    · exact ⟨events, y, s₁, h, fun event z s₂ hagain => hnext ⟨event, z, s₂, hagain⟩⟩

end Path

/-- The round from a state and a session is the last one of a run with this outcome. -/
def EndsIn (round : S → Run α σ (Round S E R)) (x : S) (s : Session α σ)
    (outcome : EStateM.Result Fault (Session α σ) R) : Prop :=
  match (round x).run s with
  | .ok (.again _ _) _ => False
  | .ok (.done _ result) s' => outcome = .ok result s'
  | .error fault s' => outcome = .error fault s'

/-- A run that returns has a last round that is done. -/
theorem EndsIn.exists_done {result : R} (h : EndsIn round y s₁ (.ok result s₂)) :
    ∃ last, (round y).run s₁ = .ok (.done last result) s₂ := by
  unfold EndsIn at h
  cases hrun : (round y).run s₁ with
  | error fault s' =>
    rw [hrun] at h
    cases h
  | ok r s' =>
    rw [hrun] at h
    cases r with
    | again event z => exact h.elim
    | done last result' =>
      cases h
      exact ⟨last, rfl⟩

/-- **Every loop comes to a last round**, and ends as that round does. -/
theorem Loops.exists_last (hloop : Loops round loop) (hround : Descends round measure) (x : S)
    (s : Session α σ) :
    ∃ events y s₁, Path round x s events y s₁ ∧ EndsIn round y s₁ ((loop x).run s) := by
  have hstart : Path round x s [] x s := .start
  obtain ⟨events, y, s₁, hpath, hlast⟩ := hstart.exists_last hround
  refine ⟨events, y, s₁, hpath, ?_⟩
  unfold EndsIn
  rw [hpath.run_loop hloop, hloop y, EStateM.run_bind]
  cases hrun : (round y).run s₁ with
  | ok r s₂ =>
    cases r with
    | again event z => exact hlast event z s₂ hrun
    | done last result => rfl
  | error fault s₂ => rfl

/-- The rule for loops: every round leads from the assertion of its state to that of the next one,
or to what is asserted of the result. -/
theorem Loops.triple {P : S → Session α σ → Prop} {Q : R → Session α σ → Prop}
    {F : Fault → Session α σ → Prop} (hloop : Loops round loop) (hround : Descends round measure)
    (h : ∀ x, Triple (P x) (round x) (fun
      | .again _ y => P y
      | .done _ result => Q result) F) (x : S) : Triple (P x) (loop x) Q F := by
  induction hm : measure x using Nat.strongRecOn generalizing x with
  | _ m ih =>
    intro s hs
    rw [hloop x, EStateM.run_bind]
    have hstep := h x s hs
    cases hrun : (round x).run s with
    | ok r s₁ =>
      rw [hrun] at hstep
      cases r with
      | again event y =>
        have hle := ((hround x).of_ok trivial hrun).2
        simp only [Round.events, Round.left, List.length_singleton] at hle
        exact ih (measure y) (by omega) y rfl s₁ hstep
      | done last result => exact hstep
    | error fault s₁ =>
      rw [hrun] at hstep
      exact hstep

/-- A property of states that every round keeps leads to what the last round makes of it. -/
theorem Loops.keeps {I : Invariant α σ} {P : S → Prop} {Q : R → Prop} (hloop : Loops round loop)
    (hround : Descends round measure)
    (h : ∀ x, P x → (round x).Keeps I fun
      | .again _ y => P y
      | .done _ result => Q result) (hx : P x) : (loop x).Keeps I Q := by
  refine (hloop.triple (P := fun x s => s.Has I ∧ P x) (Q := fun result s => s.Has I ∧ Q result)
    (F := fun _ s => s.Has I) hround (fun x s hs => ?_) x).conseq (fun s hs => ⟨hs, hx⟩)
    (fun _ _ hb => hb) fun _ _ hs => hs
  have hstep := h x hs.2 s hs.1
  cases hrun : (round x).run s with
  | ok r s₁ =>
    rw [hrun] at hstep
    cases r <;> exact hstep
  | error fault s₁ =>
    rw [hrun] at hstep
    exact hstep

end Descent.Run
