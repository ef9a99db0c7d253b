import Descent.Run

/-!
# What runs guarantee

A run starts from a session and ends in another one, with a result or in a fault.

* `Run.Triple P run Q E`: from every session with `P` the run ends in one that has `Q` together with
  the result, or in a fault and a session with `E`.
* `Run.Keeps I run Q`: the run keeps the invariant `I` however it ends, and its results have `Q`.
  `Run.Returns run b`: all its results are `b`. `Run.Gives run b`: one of them is. `Run.fault?`:
  the fault in which it ends from one session.
* `Run.Yields I run b`: where `I` holds, the run ends with the result `b`, and `I` holds again.
  `Run.Ensures I run Q`: it ends with a result that has `Q`.

An `Invariant` speaks of the tables and of the callers' state. It is blind to what has been logged,
so a debug line keeps every invariant (`Keeps.debug`, `Yields.debug`).
-/

namespace Descent

/-- A property of what runs keep between two calls, but for what they log. -/
abbrev Invariant (α σ : Type) := Array (List (Table α)) → σ → Prop

/-- The invariant that holds of every session. -/
def Invariant.none {α σ : Type} : Invariant α σ := fun _ _ => True

/-- The invariant holds of a session. -/
def Session.Has {α σ : Type} (s : Session α σ) (I : Invariant α σ) : Prop := I s.tables s.caller

/-- What the parts of a chain were that found no fault. -/
theorem Fault.bind_eq_ok {β γ : Type} {e : Except Fault β} {next : β → Except Fault γ} {c : γ}
    (h : e >>= next = .ok c) : ∃ b, e = .ok b ∧ next b = .ok c := by
  cases e with
  | ok b => exact ⟨b, rfl, h⟩
  | error fault => cases h

namespace Run

variable {α σ β γ : Type}

/-- What the parts of a run were that returned. -/
theorem bind_eq_ok {run : Run α σ β} {next : β → Run α σ γ} {c : γ} {s s' : Session α σ}
    (h : (run >>= next).run s = .ok c s') :
    ∃ b s₁, run.run s = .ok b s₁ ∧ (next b).run s₁ = .ok c s' := by
  rw [EStateM.run_bind] at h
  cases hr : run.run s with
  | ok b s₁ =>
    rw [hr] at h
    exact ⟨b, s₁, rfl, h⟩
  | error fault s₁ =>
    rw [hr] at h
    cases h

/-- What the check was that a run passed before it returned. -/
theorem check_eq_ok {e : Except Fault β} {next : β → Run α σ γ} {c : γ} {s s' : Session α σ}
    (h : (ofExcept e >>= next).run s = .ok c s') :
    ∃ b, e = .ok b ∧ (next b).run s = .ok c s' := by
  cases e with
  | ok b => exact ⟨b, rfl, h⟩
  | error fault => cases h

/-- From every session with `P` the run ends in one that has `Q` together with the result, or in a
fault and a session with `E`. -/
def Triple (P : Session α σ → Prop) (run : Run α σ β) (Q : β → Session α σ → Prop)
    (E : Fault → Session α σ → Prop) : Prop :=
  ∀ s, P s → match run.run s with
    | .ok b s' => Q b s'
    | .error fault s' => E fault s'

namespace Triple

variable {P P' : Session α σ → Prop} {run : Run α σ β} {Q Q' R : β → Session α σ → Prop}
  {E E' : Fault → Session α σ → Prop}

theorem conseq (h : Triple P run Q E) (hP : ∀ s, P' s → P s) (hQ : ∀ b s, Q b s → Q' b s)
    (hE : ∀ fault s, E fault s → E' fault s) : Triple P' run Q' E' := by
  intro s hs
  have h₁ := h s (hP s hs)
  cases hr : run.run s with
  | ok b s' =>
    rw [hr] at h₁
    exact hQ b s' h₁
  | error fault s' =>
    rw [hr] at h₁
    exact hE fault s' h₁

theorem pure {b : β} (h : ∀ s, P s → Q b s) : Triple P (pure b) Q E :=
  fun s hs => h s hs

theorem throw {fault : Fault} (h : ∀ s, P s → E fault s) :
    Triple P (throw fault : Run α σ β) Q E :=
  fun s hs => h s hs

theorem bind {next : β → Run α σ γ} {T : γ → Session α σ → Prop} (h : Triple P run R E)
    (hnext : ∀ b, Triple (R b) (next b) T E) : Triple P (run >>= next) T E := by
  intro s hs
  have h₁ := h s hs
  simp only [EStateM.run_bind]
  cases hr : run.run s with
  | ok b s' =>
    rw [hr] at h₁
    exact hnext b s' h₁
  | error fault s' =>
    rw [hr] at h₁
    exact h₁

theorem ofExcept {e : Except Fault β} (hok : ∀ b, e = .ok b → ∀ s, P s → Q b s)
    (herror : ∀ fault, e = .error fault → ∀ s, P s → E fault s) :
    Triple P (Run.ofExcept e) Q E := by
  cases e with
  | ok b => exact pure (hok b rfl)
  | error fault => exact throw (herror fault rfl)

/-- A run that starts with a check goes on with what the check found. -/
theorem check {e : Except Fault γ} {next : γ → Run α σ β}
    (hok : ∀ c, e = .ok c → Triple P (next c) Q E) (herror : ∀ fault s, P s → E fault s) :
    Triple P (Run.ofExcept e >>= next) Q E := by
  cases e with
  | ok c => exact hok c rfl
  | error fault => exact throw (herror fault)

/-- A run that starts with a check which finds no fault. -/
theorem passed {e : Except Fault γ} {c : γ} {next : γ → Run α σ β} (he : e = .ok c)
    (h : Triple P (next c) Q E) : Triple P (Run.ofExcept e >>= next) Q E := by
  subst he
  exact h

theorem ite {c : Prop} [Decidable c] {other : Run α σ β} (hpos : c → Triple P run Q E)
    (hneg : ¬c → Triple P other Q E) : Triple P (if c then run else other) Q E := by
  split
  · exact hpos ‹_›
  · exact hneg ‹_›

/-- A vector whose entries are the results of runs that keep what is asserted of sessions. -/
theorem ofFnM {P : Session α σ → Prop} {E : Fault → Session α σ → Prop} {n : Nat}
    {f : Fin n → Run α σ β} {Q : Fin n → β → Prop}
    (h : ∀ i, Triple P (f i) (fun b s => P s ∧ Q i b) E) :
    Triple P (Vector.ofFnM f) (fun v s => P s ∧ ∀ i : Fin n, Q i (v.get i)) E := by
  induction n with
  | zero =>
    rw [Vector.ofFnM_zero]
    exact pure fun s hs => ⟨hs, fun i => i.elim0⟩
  | succ n ih =>
    rw [Vector.ofFnM_succ]
    refine bind (ih fun i => h i.castSucc) fun v => ?_
    rintro s ⟨hs, hv⟩
    refine bind (h (Fin.last n)) (fun b => ?_) s hs
    refine pure fun s hb => ⟨hb.1, fun i => ?_⟩
    refine Fin.lastCases ?_ (fun i => ?_) i
    · have hlast : (v.push b).get (Fin.last n) = b := Vector.getElem_push_eq
      rw [hlast]
      exact hb.2
    · have hearlier : (v.push b).get i.castSucc = v.get i := Vector.getElem_push_lt i.isLt
      rw [hearlier]
      exact hv i

/-- What is asserted of something made of the result is asserted of the result. -/
theorem of_map {f : β → γ} {T : γ → Session α σ → Prop} (h : Triple P (f <$> run) T E) :
    Triple P run (fun b => T (f b)) E := by
  intro s hs
  have h₁ := h s hs
  rw [map_eq_pure_bind, EStateM.run_bind] at h₁
  cases hr : run.run s with
  | ok b s' =>
    rw [hr] at h₁
    exact h₁
  | error fault s' =>
    rw [hr] at h₁
    exact h₁

/-- A run from a session with `P` that returns, and what it guarantees. -/
theorem of_ok (h : Triple P run Q E) {s s' : Session α σ} {b : β} (hs : P s)
    (hr : run.run s = .ok b s') : Q b s' := by
  have := h s hs
  rwa [hr] at this

end Triple

/-- A debug line changes nothing but what has been logged. -/
theorem debug_run (source : Logging.Source) (line : Unit → String) (s : Session α σ) :
    ∃ logging, (debug source line).run s = .ok () { s with logging } := by
  cases h : s.logging.isEnabled source.name Logging.Level.debug with
  | true =>
    refine ⟨s.logging.write ⟨source.name, Logging.Level.debug, line ()⟩, ?_⟩
    simp [debug, debugEnabled, h]
  | false =>
    refine ⟨s.logging, ?_⟩
    simp [debug, debugEnabled, h]

/-- The run keeps an invariant however it ends, and its results have `Q`. -/
def Keeps (I : Invariant α σ) (run : Run α σ β) (Q : β → Prop) : Prop :=
  Triple (·.Has I) run (fun b s => s.Has I ∧ Q b) (fun _ s => s.Has I)

/-- What is known of the results of a run, besides what is asserted of it. -/
theorem Triple.and_keeps {P : Session α σ → Prop} {run : Run α σ β}
    {Q : β → Session α σ → Prop} {E : Fault → Session α σ → Prop} {R : β → Prop}
    (h : Triple P run Q E) (hkeeps : run.Keeps Invariant.none R) :
    Triple P run (fun b s => Q b s ∧ R b) E := by
  intro s hs
  have h₁ := h s hs
  have h₂ := hkeeps s trivial
  cases hr : run.run s with
  | ok b s' =>
    rw [hr] at h₁ h₂
    exact ⟨h₁, h₂.2⟩
  | error fault s' =>
    rw [hr] at h₁
    exact h₁

namespace Keeps

variable {I : Invariant α σ} {run : Run α σ β} {Q Q' R : β → Prop}

theorem mono (h : Keeps I run Q) (hQ : ∀ b, Q b → Q' b) : Keeps I run Q' :=
  h.conseq (fun _ hs => hs) (fun b _ hb => ⟨hb.1, hQ b hb.2⟩) (fun _ _ hs => hs)

theorem pure {b : β} (h : Q b) : Keeps I (pure b) Q :=
  Triple.pure fun _ hs => ⟨hs, h⟩

theorem throw {fault : Fault} : Keeps I (throw fault : Run α σ β) Q :=
  Triple.throw fun _ hs => hs

theorem bind {next : β → Run α σ γ} {T : γ → Prop} (h : Keeps I run R)
    (hnext : ∀ b, R b → Keeps I (next b) T) : Keeps I (run >>= next) T := by
  refine Triple.bind h fun b s hs => ?_
  exact hnext b hs.2 s hs.1

theorem ofExcept {e : Except Fault β} (h : ∀ b, e = .ok b → Q b) : Keeps I (Run.ofExcept e) Q :=
  Triple.ofExcept (fun b he _ hs => ⟨hs, h b he⟩) (fun _ _ _ hs => hs)

/-- A run that starts with a check goes on with what the check found. -/
theorem check {e : Except Fault β} {next : β → Run α σ γ} {T : γ → Prop}
    (h : ∀ b, e = .ok b → Keeps I (next b) T) : Keeps I (Run.ofExcept e >>= next) T :=
  bind (R := fun b => e = .ok b) (ofExcept fun _ he => he) h

theorem ite {c : Prop} [Decidable c] {other : Run α σ β} (hpos : c → Keeps I run Q)
    (hneg : ¬c → Keeps I other Q) : Keeps I (if c then run else other) Q :=
  Triple.ite hpos hneg

/-- A run that may be refused before it starts. -/
theorem refusing {c : Prop} [Decidable c] {fault : Fault} (h : Keeps I run Q) :
    Keeps I (if c then (MonadExcept.throw fault : Run α σ PUnit) >>= fun _ => run else run) Q :=
  ite (fun _ => bind (R := fun _ => True) throw fun _ _ => h) fun _ => h

theorem debugEnabled {source : Logging.Source} : Keeps I (Run.debugEnabled source) fun _ => True :=
  fun _ hs => ⟨hs, trivial⟩

theorem debug {source : Logging.Source} {line : Unit → String} :
    Keeps I (Run.debug source line) fun _ => True := by
  intro s hs
  obtain ⟨logging, hr⟩ := debug_run source line s
  rw [hr]
  exact ⟨hs, trivial⟩

theorem ofFnM {n : Nat} {f : Fin n → Run α σ β} {Q : Fin n → β → Prop}
    (h : ∀ i, Keeps I (f i) (Q i)) :
    Keeps I (Vector.ofFnM f) fun v => ∀ i : Fin n, Q i (v.get i) :=
  Triple.ofFnM h

/-- What is known of the results of a run, with the fact that the run returned them. -/
theorem returned (h : Keeps I run Q) :
    Keeps I run fun b => Q b ∧ ∃ s s' : Session α σ, s.Has I ∧ run.run s = .ok b s' := by
  intro s hs
  have h₁ := h s hs
  cases hr : run.run s with
  | ok b s' =>
    rw [hr] at h₁
    exact ⟨h₁.1, h₁.2, s, s', hs, hr⟩
  | error fault s' =>
    rw [hr] at h₁
    exact h₁

/-- What is known of something made of the results is known of the results. -/
theorem of_map {f : β → γ} {T : γ → Prop} (h : Keeps I (f <$> run) T) :
    Keeps I run fun b => T (f b) :=
  Triple.of_map h

/-- Results of a run from a session where the invariant holds. -/
theorem of_ok (h : Keeps I run Q) {s s' : Session α σ} {b : β} (hs : s.Has I)
    (hr : run.run s = .ok b s') : s'.Has I ∧ Q b :=
  Triple.of_ok h hs hr

end Keeps

/-- The fault in which a run ends, if it ends in one. -/
def fault? {α σ β : Type} (run : Run α σ β) (session : Session α σ) : Option Fault :=
  match run.run session with
  | .ok _ _ => none
  | .error fault _ => some fault

theorem returns_of_fault? {α σ β : Type} (run : Run α σ β) (session : Session α σ)
    (h : run.fault? session = none) : ∃ b session', run.run session = .ok b session' := by
  unfold fault? at h
  split at h
  · exact ⟨_, _, ‹_›⟩
  · cases h

/-- Every result of a run is `b`. -/
def Returns (run : Run α σ β) (b : β) : Prop :=
  run.Keeps Invariant.none (· = b)

/-- The run can have the result `b`. -/
def Gives (run : Run α σ β) (b : β) : Prop :=
  ∃ s s' : Session α σ, run.run s = .ok b s'

theorem Returns.eq_of_gives {run : Run α σ β} {b c : β} (h : run.Returns b) (hc : run.Gives c) :
    c = b := by
  obtain ⟨s, s', hr⟩ := hc
  exact (h.of_ok trivial hr).2

/-- What follows a run only matters at the results that it can have. -/
theorem Keeps.bind_congr {run : Run α σ β} {Q : β → Prop} {next next' : β → Run α σ γ}
    (h : run.Keeps Invariant.none Q) (hnext : ∀ b, Q b → next b = next' b) :
    run >>= next = run >>= next' := by
  funext s
  change (run >>= next).run s = (run >>= next').run s
  rw [EStateM.run_bind, EStateM.run_bind]
  cases hr : run.run s with
  | ok b s' => exact congrArg (·.run s') (hnext b (h.of_ok trivial hr).2)
  | error fault s' => rfl

theorem ofExcept_bind (e : Except Fault β) (next : β → Except Fault γ) :
    (Run.ofExcept (e >>= next) : Run α σ γ) =
      Run.ofExcept e >>= fun b => Run.ofExcept (next b) := by
  cases e <;> rfl

theorem ofExcept_pure (b : β) : (Run.ofExcept (Pure.pure b) : Run α σ β) = Pure.pure b :=
  rfl

/-- What follows a check only matters at what the check finds. -/
theorem check_congr {e : Except Fault β} {next next' : β → Run α σ γ}
    (h : ∀ b, e = .ok b → next b = next' b) :
    Run.ofExcept e >>= next = Run.ofExcept e >>= next' := by
  cases e with
  | ok b => exact h b rfl
  | error fault => rfl

/-- Every run keeps the invariant that asks for nothing. -/
theorem keeps_none (run : Run α σ β) : run.Keeps Invariant.none fun _ => True := by
  intro s _
  cases run.run s <;> trivial

theorem keeps_gives (run : Run α σ β) : run.Keeps Invariant.none run.Gives :=
  (keeps_none run).returned.mono fun _ ⟨_, s, s', _, hr⟩ => ⟨s, s', hr⟩

/-- Where the invariant holds, the run ends with the result `b`, and the invariant holds again. -/
def Yields (I : Invariant α σ) (run : Run α σ β) (b : β) : Prop :=
  Triple (·.Has I) run (fun c s => s.Has I ∧ c = b) (fun _ _ => False)

namespace Yields

variable {I : Invariant α σ} {run : Run α σ β} {b : β}

theorem pure : Yields I (pure b) b :=
  Triple.pure fun _ hs => ⟨hs, rfl⟩

theorem bind {next : β → Run α σ γ} {c : γ} (h : Yields I run b) (hnext : Yields I (next b) c) :
    Yields I (run >>= next) c := by
  refine Triple.bind h fun b' s hs => ?_
  obtain ⟨hI, rfl⟩ := hs
  exact hnext s hI

theorem map {f : β → γ} (h : Yields I run b) : Yields I (f <$> run) (f b) := by
  rw [map_eq_pure_bind]
  exact h.bind pure

theorem ofExcept {e : Except Fault β} (h : e = .ok b) : Yields I (Run.ofExcept e) b := by
  subst h
  exact pure

theorem ofFnM {n : Nat} {f : Fin n → Run α σ β} {b : Fin n → β} (h : ∀ i, Yields I (f i) (b i)) :
    Yields I (Vector.ofFnM f) (Vector.ofFn b) := by
  refine (Triple.ofFnM (P := (·.Has I)) h).conseq (fun _ hs => hs) (fun v s hs => ⟨hs.1, ?_⟩)
    fun _ _ hf => hf
  ext i hi
  rw [Vector.getElem_ofFn]
  exact hs.2 ⟨i, hi⟩

theorem exists_run (h : Yields I run b) {s : Session α σ} (hs : s.Has I) :
    ∃ s', run.run s = .ok b s' ∧ s'.Has I := by
  have h₁ := h s hs
  cases hr : run.run s with
  | ok c s' =>
    rw [hr] at h₁
    exact ⟨s', h₁.2 ▸ rfl, h₁.1⟩
  | error fault s' =>
    rw [hr] at h₁
    exact h₁.elim

/-- A run that ends with the result `b` has no other results. -/
theorem keeps (h : Yields I run b) : Keeps I run (· = b) :=
  h.conseq (fun _ hs => hs) (fun _ _ hc => hc) fun _ _ hf => hf.elim

theorem debug {source : Logging.Source} {line : Unit → String} :
    Yields I (Run.debug source line) () := by
  intro s hs
  obtain ⟨logging, hr⟩ := debug_run source line s
  rw [hr]
  exact ⟨hs, rfl⟩

end Yields

/-- Where the invariant holds, the run ends with a result that has `Q`, and the invariant holds
again. -/
def Ensures (I : Invariant α σ) (run : Run α σ β) (Q : β → Prop) : Prop :=
  Triple (·.Has I) run (fun b s => s.Has I ∧ Q b) (fun _ _ => False)

namespace Ensures

variable {I : Invariant α σ} {run : Run α σ β} {Q Q' R : β → Prop}

theorem pure {b : β} (h : Q b) : Ensures I (pure b) Q :=
  Triple.pure fun _ hs => ⟨hs, h⟩

theorem mono (h : Ensures I run Q) (hQ : ∀ b, Q b → Q' b) : Ensures I run Q' :=
  h.conseq (fun _ hs => hs) (fun b _ hb => ⟨hb.1, hQ b hb.2⟩) (fun _ _ hf => hf)

theorem bind {next : β → Run α σ γ} {T : γ → Prop} (h : Ensures I run R)
    (hnext : ∀ b, R b → Ensures I (next b) T) : Ensures I (run >>= next) T := by
  refine Triple.bind h fun b s hs => ?_
  exact hnext b hs.2 s hs.1

theorem ofFnM {n : Nat} {f : Fin n → Run α σ β} {Q : Fin n → β → Prop}
    (h : ∀ i, Ensures I (f i) (Q i)) :
    Ensures I (Vector.ofFnM f) fun v => ∀ i : Fin n, Q i (v.get i) :=
  Triple.ofFnM h

theorem exists_run (h : Ensures I run Q) {s : Session α σ} (hs : s.Has I) :
    ∃ b s', run.run s = .ok b s' ∧ s'.Has I ∧ Q b := by
  have h₁ := h s hs
  cases hr : run.run s with
  | ok b s' =>
    rw [hr] at h₁
    exact ⟨b, s', rfl, h₁⟩
  | error fault s' =>
    rw [hr] at h₁
    exact h₁.elim

/-- What is known of all results of a run is ensured by a run that returns. -/
theorem and_keeps (h : Ensures I run Q) (hkeeps : Keeps I run R) :
    Ensures I run fun b => Q b ∧ R b := by
  intro s hs
  have h₁ := h s hs
  have h₂ := hkeeps s hs
  cases hr : run.run s with
  | ok b s' =>
    rw [hr] at h₁ h₂
    exact ⟨h₁.1, h₁.2, h₂.2⟩
  | error fault s' =>
    rw [hr] at h₁
    exact h₁

theorem of_yields {b : β} (h : Yields I run b) (hb : Q b) : Ensures I run Q :=
  h.conseq (fun _ hs => hs) (fun _ _ hc => ⟨hc.1, hc.2 ▸ hb⟩) (fun _ _ hf => hf)

end Ensures

end Run

end Descent
