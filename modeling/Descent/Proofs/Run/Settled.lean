import Descent.Proofs.Run.Comparison
import Descent.Proofs.Run.Loop

/-!
# What is observed once

A run that compares with itself from any two sessions of a kind need only be observed once: the
result that it has had from one of them is the one that it has from all of them.

* `Run.Observed`: the run has had a result, from a session of the kind; `Observed.settles`.
* `Run.answerFrom`: what a run answers from a session; `Settles.answerFrom_eq`.
* `Comparison.Compares.observed`, `Comparison.Compares.settled`: the rules that keep what is
  observed for what follows.
* `Run.Path.holds`: what is asserted of states together with their sessions, and kept by every round
  of a loop, holds wherever the loop has come to; `Run.Path.meets`, for sessions of the kind.
-/

namespace Descent

namespace Run

variable {α σ β γ : Type} {I : Invariant α σ} {on : Logging.Source → Bool} {run : Run α σ β} {b : β}

/-- From a session of the kind the run has ended with this result, in another one. -/
def Observed (I : Invariant α σ) (on : Logging.Source → Bool) (run : Run α σ β) (b : β) : Prop :=
  ∃ s s', s.Meets I on ∧ s'.Meets I on ∧ run.run s = .ok b s'

/-- **What has been observed once is settled.** -/
theorem Observed.settles (hb : run.Observed I on b)
    (h : (Comparison.apart I on).Compares Eq run run) : run.Settles I on (.ok b) := by
  obtain ⟨s, s', hs, -, hr⟩ := hb
  exact fun t ht => ending_of_compares h hs ht hr

/-- What has been observed of the parts of a run is observed of the run. -/
theorem Observed.bind (next : β → Run α σ γ) {c : γ} (hb : run.Observed I on b)
    (h : (next b).Settles I on (.ok c)) : (run >>= next).Observed I on c := by
  obtain ⟨s, s', hs, hs', hr⟩ := hb
  obtain ⟨s'', hs'', hnext⟩ := h s' hs'
  refine ⟨s, s'', hs, hs'', ?_⟩
  rw [EStateM.run_bind, hr]
  exact hnext

theorem Observed.of_map {f : β → γ} {c : γ} (h : (f <$> run).Observed I on c) :
    ∃ b, run.Observed I on b ∧ f b = c := by
  obtain ⟨s, s', hs, hs', hr⟩ := h
  rw [map_eq_pure_bind] at hr
  obtain ⟨b, s₁, hb, hlast⟩ := bind_eq_ok hr
  cases hlast
  exact ⟨b, ⟨s, s', hs, hs', hb⟩, rfl⟩

theorem Settles.debugEnabled (source : Logging.Source) :
    (Run.debugEnabled source : Run α σ Bool).Settles I on (.ok (on source)) :=
  fun s hs => ⟨s, hs, congrArg (EStateM.Result.ok · s) (congrFun hs.2 source)⟩

/-- A run that has been tried at all has one outcome. -/
theorem Settles.unique {e e' : Except Fault β} (h : run.Settles I on e) (h' : run.Settles I on e')
    {s : Session α σ} (hs : s.Meets I on) : e = e' := by
  obtain ⟨t, -, ht⟩ := h s hs
  obtain ⟨t', -, ht'⟩ := h' s hs
  have hending := ht.symm.trans ht'
  cases e <;> cases e' <;> cases hending <;> rfl

theorem Settles.eq_of_run {e : Except Fault β} (h : run.Settles I on e) {s s' : Session α σ}
    (hs : s.Meets I on) (hr : run.run s = .ok b s') : e = .ok b := by
  obtain ⟨t, -, ht⟩ := h s hs
  rw [hr] at ht
  cases e <;> cases ht
  rfl

/-- What a run answers from a session. -/
def answerFrom (run : Run α σ β) (s : Session α σ) : Except Fault β :=
  match run.run s with
  | .ok b _ => .ok b
  | .error fault _ => .error fault

theorem Settles.answerFrom_eq {e : Except Fault β} (h : run.Settles I on e) {s : Session α σ}
    (hs : s.Meets I on) : run.answerFrom s = e := by
  obtain ⟨s', -, hr⟩ := h s hs
  rw [answerFrom, hr]
  cases e <;> rfl

variable {S E R : Type} {round : S → Run α σ (Round S E R)} {x y : S} {s s₁ : Session α σ}
  {events : List E}

/-- What is asserted of a state and its session, and kept by every round, holds at the end of a
path. -/
theorem Path.holds {P : S → Session α σ → Prop} (h : Path round x s events y s₁) (hstart : P x s)
    (hround : ∀ y, Triple (P y) (round y) (fun r s => ∀ event z, r = .again event z → P z s)
      fun _ _ => True) : P y s₁ := by
  induction h with
  | start => exact hstart
  | again _ next ih => exact (hround _).of_ok ih next _ _ rfl

/-- What is known of a state in sessions of the kind, and kept by every round from there, is known
at the end of a path. -/
theorem Path.meets {P : S → Prop} {Q : S → Round S E R → Prop} (h : Path round x s events y s₁)
    (hs : s.Meets I on ∧ P x)
    (hround : ∀ y, P y → Triple (·.Meets I on) (round y) (fun r s => s.Meets I on ∧ Q y r)
      fun _ s => s.Meets I on)
    (hagain : ∀ y event z, Q y (.again event z) → P z) : s₁.Meets I on ∧ P y := by
  refine h.holds (P := fun y s => s.Meets I on ∧ P y) hs fun y t hy => ?_
  refine (hround y hy.2).conseq (fun _ ht => ht) (fun r _ hr event z hevent => ?_)
    (fun _ _ _ => trivial) t hy.1
  subst hevent
  exact ⟨hr.1, hagain y event z hr.2⟩

end Run

namespace Comparison.Compares

variable {α σ β : Type} {I : Invariant α σ} {on : Logging.Source → Bool} {run : Run α σ β}

/-- The results of a run that compares with itself are observed. -/
theorem observed {R : β → β → Prop} (h : (apart I on).Compares R run run) :
    Run.Triple (·.Meets I on) run
      (fun b s => s.Meets I on ∧ R b b ∧ run.Observed I on b) fun _ s => s.Meets I on := by
  intro s hs
  have hself := h s s ⟨hs, hs⟩
  cases hr : run.run s with
  | ok b s' =>
    rw [hr] at hself
    exact ⟨hself.1.1, hself.2, s, s', hs, hself.1.1, hr⟩
  | error fault s' =>
    rw [hr] at hself
    rcases hself with hexcused | ⟨-, hs', -⟩
    · exact hexcused.elim
    · exact hs'

/-- The result of a run that compares with itself is settled. -/
theorem settled (h : (apart I on).Compares Eq run run) :
    Run.Triple (·.Meets I on) run (fun b s => s.Meets I on ∧ run.Settles I on (.ok b))
      fun _ s => s.Meets I on :=
  h.observed.conseq (fun _ hs => hs) (fun _ _ hb => ⟨hb.1, hb.2.2.settles h⟩) fun _ _ hs => hs

end Comparison.Compares

end Descent
