import Descent.Proofs.Run.Paired
import Mathlib.Data.List.Forall2

/-!
# Runs compared

Two runs of one shape are compared part by part. A `Comparison` says how the sessions of the two are
related and which faults of the first run are excused: after such a fault nothing is asked of the
second run.

* `Comparison.Compares c R first second`: from related sessions both runs return results in the
  relation `R`, or both end in the same fault, and their sessions are related again; or the first
  one ends in an excused fault. A comparison is a pairing (`Comparison.compares_iff`) and has its
  rules.
* `Comparison.same I excused`: both runs start from one session, in which an invariant holds.
* `Comparison.apart I on`: the runs start from any two sessions in which an invariant holds and the
  same debug lines are written. A run compared with itself in this way has the same outcome from all
  such sessions, `Run.Settles` (`Run.exists_settles`).
-/

namespace Descent

namespace Logging.Registry

/-- Writing a record changes nothing but what sinks have received. -/
theorem write_eq (r : Registry) (record : Record) : ∃ streams standardError,
    r.write record = { r with streams := streams, standardError := standardError } := by
  have happend (r : Registry) (sink : Sink) (line : String) : ∃ streams standardError,
      r.append sink line = { r with streams := streams, standardError := standardError } := by
    cases sink <;> exact ⟨_, _, rfl⟩
  have hhandle (r : Registry) (h : Handler) : ∃ streams standardError,
      Registry.handle record r h =
        { r with streams := streams, standardError := standardError } := by
    unfold Registry.handle
    split
    · split
      · exact happend _ _ _
      · exact ⟨_, _, rfl⟩
    · exact ⟨_, _, rfl⟩
  have hfoldl (handlers : List Handler) (r : Registry) : ∃ streams standardError,
      handlers.foldl (Registry.handle record) r =
        { r with streams := streams, standardError := standardError } := by
    induction handlers generalizing r with
    | nil => exact ⟨_, _, rfl⟩
    | cons h rest ih =>
      obtain ⟨streams, standardError, hfirst⟩ := hhandle r h
      obtain ⟨streams', standardError', hrest⟩ := ih (Registry.handle record r h)
      exact ⟨streams', standardError', by rw [List.foldl_cons, hrest, hfirst]⟩
  unfold Registry.write
  split
  · split
    · exact hfoldl _ r
    · exact ⟨_, _, rfl⟩
  · exact ⟨_, _, rfl⟩

theorem loggers_write (r : Registry) (record : Record) : (r.write record).loggers = r.loggers := by
  obtain ⟨streams, standardError, h⟩ := r.write_eq record
  rw [h]

/-- Writing a record does not change which records are written. -/
theorem isEnabled_write (r : Registry) (record : Record) (name : String) (level : Level) :
    (r.write record).isEnabled name level = r.isEnabled name level := by
  have hfind : (r.write record).find? = r.find? := by
    funext name
    simp only [find?, loggers_write]
  simp only [isEnabled, effectiveLevel, hfind]

end Logging.Registry

variable {α σ : Type}

/-- Whether debug lines of a part are written anywhere. -/
def Session.listens (s : Session α σ) (source : Logging.Source) : Bool :=
  s.logging.isEnabled source.name Logging.Level.debug

/-- The session after a record was sent to a logger. -/
def Session.logged (s : Session α σ) (record : Logging.Record) : Session α σ :=
  { s with logging := s.logging.write record }

@[simp] theorem Session.listens_logged (s : Session α σ) (record : Logging.Record)
    (source : Logging.Source) : (s.logged record).listens source = s.listens source :=
  Logging.Registry.isEnabled_write _ _ _ _

theorem Session.Has.logged {I : Invariant α σ} {s : Session α σ} (h : s.Has I)
    (record : Logging.Record) : (s.logged record).Has I :=
  h

/-- How two runs are compared: what is known of their sessions, and the faults of the first one
after which nothing is asked of the second. -/
structure Comparison (α σ : Type) where
  related : Session α σ → Session α σ → Prop
  excused : Fault → Prop
  /-- The same debug lines are written in related sessions. -/
  listens : ∀ {s t}, related s t → ∀ source, s.listens source = t.listens source
  logged : ∀ {s t}, related s t → ∀ record, related (s.logged record) (t.logged record)

namespace Comparison

variable {β γ δ ε : Type} {c : Comparison α σ}

/-- From related sessions both runs return results in relation or end in the same fault, and their
sessions are related again; or the first one ends in an excused fault. -/
def Compares (c : Comparison α σ) (R : β → γ → Prop) (first : Run α σ β) (second : Run α σ γ) :
    Prop :=
  ∀ s t, c.related s t → match first.run s, second.run t with
    | .ok b s', .ok d t' => c.related s' t' ∧ R b d
    | .error f s', .error g t' => c.excused f ∨ f = g ∧ c.related s' t'
    | .error f _, .ok _ _ => c.excused f
    | .ok _ _, .error _ _ => False

/-- A comparison is a pairing. -/
theorem compares_iff {R : β → γ → Prop} {first : Run α σ β} {second : Run α σ γ} :
    c.Compares R first second ↔
      Run.Paired c.related first second (fun b d s t => c.related s t ∧ R b d)
        (fun f g s t => f = g ∧ c.related s t) c.excused :=
  Iff.rfl

namespace Compares

variable {R : β → γ → Prop} {T : δ → ε → Prop} {first : Run α σ β} {second : Run α σ γ}

theorem pure {b : β} {d : γ} (h : R b d) : c.Compares R (pure b) (pure d) :=
  compares_iff.2 (.pure fun _ _ hst => ⟨hst, h⟩)

theorem throw {fault : Fault} :
    c.Compares R (throw fault : Run α σ β) (throw fault : Run α σ γ) :=
  compares_iff.2 (.throw fun _ _ hst => ⟨rfl, hst⟩)

/-- Nothing is asked of the second run if the first one ends in an excused fault. -/
theorem excused {fault : Fault} (h : c.excused fault) :
    c.Compares R (MonadExcept.throw fault : Run α σ β) second :=
  compares_iff.2 (.refused h)

theorem bind {next : β → Run α σ δ} {next' : γ → Run α σ ε} (h : c.Compares R first second)
    (hnext : ∀ b d, R b d → c.Compares T (next b) (next' d)) :
    c.Compares T (first >>= next) (second >>= next') :=
  compares_iff.2 ((compares_iff.1 h).bind fun b d => .assuming (hnext b d))

theorem mono {R' : β → γ → Prop} (h : c.Compares R first second)
    (hR : ∀ b d, R b d → R' b d) : c.Compares R' first second := by
  rw [← bind_pure first, ← bind_pure second]
  exact h.bind fun b d hbd => pure (hR b d hbd)

theorem ite {p q : Prop} [Decidable p] [Decidable q] {other : Run α σ β} {other' : Run α σ γ}
    (hiff : p ↔ q) (hpos : p → c.Compares R first second)
    (hneg : ¬p → c.Compares R other other') :
    c.Compares R (if p then first else other) (if q then second else other') :=
  compares_iff.2 (.ite hiff hpos hneg)

/-- Two runs that start with the same check go on with what the check found. -/
theorem check {e : Except Fault δ} {next : δ → Run α σ β} {next' : δ → Run α σ γ}
    (h : ∀ d, e = .ok d → c.Compares R (next d) (next' d)) :
    c.Compares R (Run.ofExcept e >>= next) (Run.ofExcept e >>= next') :=
  compares_iff.2 (.check (fun _ _ _ hst => ⟨rfl, hst⟩) h)

theorem ofExcept {e : Except Fault β} {R : β → β → Prop} (h : ∀ b, e = .ok b → R b b) :
    c.Compares R (Run.ofExcept e) (Run.ofExcept e) :=
  compares_iff.2 (.ofExcept (fun _ _ _ hst => ⟨rfl, hst⟩) fun b hb _ _ hst => ⟨hst, h b hb⟩)

theorem debugEnabled (source : Logging.Source) :
    c.Compares Eq (Run.debugEnabled source) (Run.debugEnabled source) :=
  fun _ _ hst => ⟨hst, c.listens hst source⟩

theorem debug (source : Logging.Source) (line : Unit → String) :
    c.Compares Eq (Run.debug source line) (Run.debug source line) := by
  refine bind (debugEnabled source) ?_
  rintro enabled _ rfl
  refine ite Iff.rfl (fun _ => ?_) fun _ => pure rfl
  intro s t hst
  exact ⟨c.logged hst _, rfl⟩

/-- Vectors whose entries are compared. -/
theorem ofFnM {n : Nat} {f : Fin n → Run α σ β} {f' : Fin n → Run α σ β}
    (h : ∀ i, c.Compares Eq (f i) (f' i)) : c.Compares Eq (Vector.ofFnM f) (Vector.ofFnM f') :=
  compares_iff.2 (.ofFnM h)

/-- Lists of results that are in relation one by one. -/
theorem mapM {f : δ → Run α σ β} {f' : δ → Run α σ γ} (h : ∀ x, c.Compares R (f x) (f' x))
    (xs : List δ) : c.Compares (List.Forall₂ R) (xs.mapM f) (xs.mapM f') := by
  induction xs with
  | nil =>
    rw [List.mapM_nil, List.mapM_nil]
    exact pure .nil
  | cons x xs ih =>
    rw [List.mapM_cons, List.mapM_cons]
    refine bind (h x) fun b d hbd => ?_
    exact bind ih fun bs ds hbds => pure (.cons hbd hbds)

/-- What the first run keeps holds of both results. -/
theorem keeps {J : Invariant α σ} {Q : β → Prop} (h : c.Compares R first second)
    (hJ : ∀ {s t}, c.related s t → s.Has J) (hQ : first.Keeps J Q) :
    c.Compares (fun b d => R b d ∧ Q b) first second := by
  intro s t hst
  have h₁ := h s t hst
  have h₂ := hQ s (hJ hst)
  cases hs : first.run s with
  | ok b s' =>
    cases ht : second.run t with
    | ok d t' =>
      rw [hs, ht] at h₁
      rw [hs] at h₂
      exact ⟨h₁.1, h₁.2, h₂.2⟩
    | error g t' =>
      rw [hs, ht] at h₁
      exact h₁.elim
  | error f s' =>
    rw [hs] at h₁
    cases ht : second.run t with
    | ok d t' =>
      rw [ht] at h₁
      exact h₁
    | error g t' =>
      rw [ht] at h₁
      exact h₁

end Compares

/-! ## One session -/

/-- Both runs start from one session, in which an invariant holds. -/
def same (I : Invariant α σ) (excused : Fault → Prop) : Comparison α σ where
  related s t := s = t ∧ s.Has I
  excused := excused
  listens h source := by rw [h.1]
  logged h record := ⟨by rw [h.1], h.2.logged record⟩

/-- A run that keeps the invariant does the same as itself. -/
theorem same_of_keeps {I : Invariant α σ} {X : Fault → Prop} {run : Run α σ β} {Q : β → Prop}
    (h : run.Keeps I Q) : (same I X).Compares (fun b d => b = d ∧ Q b) run run := by
  rintro s _ ⟨rfl, hs⟩
  have h₁ := h s hs
  cases hr : run.run s with
  | ok b s' =>
    rw [hr] at h₁
    exact ⟨⟨rfl, h₁.1⟩, rfl, h₁.2⟩
  | error fault s' =>
    rw [hr] at h₁
    exact .inr ⟨rfl, rfl, h₁⟩

/-- Either the first run ends in an excused fault, or both do the same. -/
theorem Compares.eq_or_excused {I : Invariant α σ} {X : Fault → Prop} {first second : Run α σ β}
    (h : (same I X).Compares Eq first second) {s : Session α σ} (hs : s.Has I) :
    (∃ fault s', first.run s = .error fault s' ∧ X fault) ∨ second.run s = first.run s := by
  have h₁ := h s s ⟨rfl, hs⟩
  cases hf : first.run s with
  | ok b s' =>
    cases hg : second.run s with
    | ok d t' =>
      rw [hf, hg] at h₁
      obtain ⟨⟨rfl, -⟩, rfl⟩ := h₁
      exact .inr rfl
    | error g t' =>
      rw [hf, hg] at h₁
      exact h₁.elim
  | error f s' =>
    cases hg : second.run s with
    | ok d t' =>
      rw [hf, hg] at h₁
      exact .inl ⟨f, s', rfl, h₁⟩
    | error g t' =>
      rw [hf, hg] at h₁
      rcases h₁ with hX | ⟨rfl, rfl, -⟩
      · exact .inl ⟨f, s', rfl, hX⟩
      · exact .inr rfl

end Comparison

/-! ## Two sessions -/

/-- An invariant holds of a session, and these debug lines are written in it. -/
def Session.Meets (s : Session α σ) (I : Invariant α σ)
    (on : Logging.Source → Bool) : Prop :=
  s.Has I ∧ s.listens = on

theorem Session.Meets.logged {s : Session α σ} {I : Invariant α σ} {on : Logging.Source → Bool}
    (h : s.Meets I on) (record : Logging.Record) : (s.logged record).Meets I on :=
  ⟨h.1, (funext fun source => s.listens_logged record source).trans h.2⟩

/-- The runs start from any two sessions of one kind. -/
def Comparison.apart (I : Invariant α σ) (on : Logging.Source → Bool) : Comparison α σ where
  related s t := s.Meets I on ∧ t.Meets I on
  excused _ := False
  listens h source := by rw [h.1.2, h.2.2]
  logged h record := ⟨h.1.logged record, h.2.logged record⟩

namespace Run

variable {β γ δ : Type} {I : Invariant α σ} {on : Logging.Source → Bool} {run : Run α σ β}
  {e : Except Fault β}

/-- How a run ends that has an outcome. -/
def ending (e : Except Fault β) (s : Session α σ) : EStateM.Result Fault (Session α σ) β :=
  match e with
  | .ok b => .ok b s
  | .error fault => .error fault s

/-- From every session of a kind the run has the same outcome and ends in a session of that kind. -/
def Settles (I : Invariant α σ) (on : Logging.Source → Bool) (run : Run α σ β)
    (e : Except Fault β) : Prop :=
  ∀ s, s.Meets I on → ∃ s', s'.Meets I on ∧ run.run s = ending e s'

namespace Settles

theorem pure {b : β} : Settles I on (pure b) (.ok b) :=
  fun s hs => ⟨s, hs, rfl⟩

theorem throw {fault : Fault} : Settles I on (throw fault : Run α σ β) (.error fault) :=
  fun s hs => ⟨s, hs, rfl⟩

/-- What follows a run may depend on a part of its result alone. -/
theorem bind_of_map {f : β → δ} {e : Except Fault δ} {next : β → Run α σ γ}
    {out : δ → Except Fault γ} (h : Settles I on (f <$> run) e)
    (hnext : ∀ b, Settles I on (next b) (out (f b))) : Settles I on (run >>= next) (e >>= out) := by
  intro s hs
  obtain ⟨s', hs', hmap⟩ := h s hs
  rw [map_eq_pure_bind, EStateM.run_bind] at hmap
  rw [EStateM.run_bind]
  cases hr : run.run s with
  | ok b s₁ =>
    rw [hr] at hmap
    cases e with
    | ok d =>
      cases hmap
      exact hnext b s' hs'
    | error fault => cases hmap
  | error fault s₁ =>
    rw [hr] at hmap
    cases e with
    | ok d => cases hmap
    | error g =>
      cases hmap
      exact ⟨s', hs', rfl⟩

theorem bind {next : β → Run α σ γ} {out : β → Except Fault γ} (h : Settles I on run e)
    (hnext : ∀ b, Settles I on (next b) (out b)) : Settles I on (run >>= next) (e >>= out) := by
  have hmap : Settles I on (id <$> run) e := by rwa [id_map]
  exact hmap.bind_of_map hnext

/-- What follows a run only matters at its result. -/
theorem bind_ok {next : β → Run α σ γ} {b : β} {e : Except Fault γ} (h : Settles I on run (.ok b))
    (hnext : Settles I on (next b) e) : Settles I on (run >>= next) e := by
  intro s hs
  obtain ⟨s', hs', hr⟩ := h s hs
  rw [EStateM.run_bind, hr]
  exact hnext s' hs'

theorem bind_error {next : β → Run α σ γ} {fault : Fault} (h : Settles I on run (.error fault)) :
    Settles I on (run >>= next) (.error fault) :=
  fun s hs => by
    obtain ⟨s', hs', hr⟩ := h s hs
    rw [EStateM.run_bind, hr]
    exact ⟨s', hs', rfl⟩

theorem map {f : β → γ} (h : Settles I on run e) : Settles I on (f <$> run) (f <$> e) := by
  rw [map_eq_pure_bind]
  cases e with
  | ok b => exact h.bind_ok pure
  | error fault => exact h.bind_error

theorem ofExcept : Settles I on (Run.ofExcept e) e := by
  cases e with
  | ok b => exact pure
  | error fault => exact throw

theorem debug (source : Logging.Source) (line : Unit → String) :
    Settles I on (Run.debug source line) (.ok ()) := by
  intro s hs
  cases h : s.logging.isEnabled source.name Logging.Level.debug with
  | true =>
    refine ⟨_, hs.logged ⟨source.name, Logging.Level.debug, line ()⟩, ?_⟩
    simp [Run.debug, debugEnabled, h, Session.logged, ending]
  | false =>
    refine ⟨s, hs, ?_⟩
    simp [Run.debug, debugEnabled, h, ending]

/-- Two runs with the same outcome compare. -/
theorem compares {other : Run α σ β} (h : Settles I on run e) (hother : Settles I on other e) :
    (Comparison.apart I on).Compares Eq run other := by
  rintro s t ⟨hs, ht⟩
  obtain ⟨s', hs', hr⟩ := h s hs
  obtain ⟨t', ht', ho⟩ := hother t ht
  rw [hr, ho]
  cases e with
  | ok b => exact ⟨⟨hs', ht'⟩, rfl⟩
  | error fault => exact .inr ⟨rfl, hs', ht'⟩

/-- It does not matter what is logged before the second run. -/
theorem after_debug {R : β → γ → Prop} {other : Run α σ γ}
    (h : (Comparison.apart I on).Compares R run other) (source : Logging.Source)
    (line : Unit → String) :
    (Comparison.apart I on).Compares R run (Run.debug source line >>= fun _ => other) := by
  rintro s t ⟨hs, ht⟩
  obtain ⟨t', ht', hdebug⟩ := debug source line t ht
  rw [EStateM.run_bind, hdebug]
  exact h s t' ⟨hs, ht'⟩

end Settles

/-- A run that compares with one that has ended ends in the same way. -/
theorem ending_of_compares {other : Run α σ β}
    (h : (Comparison.apart I on).Compares Eq run other) {s s' t : Session α σ} (hs : s.Meets I on)
    (ht : t.Meets I on) (hr : run.run s = ending e s') :
    ∃ t', t'.Meets I on ∧ other.run t = ending e t' := by
  have h₁ := h s t ⟨hs, ht⟩
  rw [hr] at h₁
  cases ho : other.run t with
  | ok d t' =>
    rw [ho] at h₁
    cases e with
    | ok b =>
      obtain ⟨⟨-, ht'⟩, rfl⟩ := h₁
      exact ⟨t', ht', rfl⟩
    | error fault => exact h₁.elim
  | error g t' =>
    rw [ho] at h₁
    cases e with
    | ok b => exact h₁.elim
    | error fault =>
      rcases h₁ with hX | ⟨rfl, -, ht'⟩
      · exact hX.elim
      · exact ⟨t', ht', rfl⟩

/-- A run that compares with one of settled outcome has that outcome. -/
theorem Settles.of_compares {other : Run α σ β} (h : Settles I on run e)
    (hother : (Comparison.apart I on).Compares Eq run other) : Settles I on other e := by
  intro s hs
  obtain ⟨s', -, hr⟩ := h s hs
  exact ending_of_compares hother hs hs hr

/-- A run compared with itself from any two sessions of a kind has the same outcome from all. -/
theorem exists_settles (h : (Comparison.apart I on).Compares Eq run run) :
    ∃ e, run.Settles I on e := by
  by_cases hsome : ∃ s : Session α σ, s.Meets I on
  · obtain ⟨s₀, hs₀⟩ := hsome
    cases hr : run.run s₀ with
    | ok b s₁ => exact ⟨.ok b, fun s hs => ending_of_compares h hs₀ hs hr⟩
    | error fault s₁ => exact ⟨.error fault, fun s hs => ending_of_compares h hs₀ hs hr⟩
  · exact ⟨.error .divisionByZero, fun s hs => absurd ⟨s, hs⟩ hsome⟩

end Run

end Descent
