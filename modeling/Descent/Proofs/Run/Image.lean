import Descent.Proofs.Run.Loop
import Descent.Proofs.Run.Paired

/-!
# Runs with the same effects

Two runs may do the same and differ in what they return: `Run.Sends f first second` says that the
second returns what `f` makes of the result of the first, from every session and with the same
faults. From one session such runs are paired (`Run.sends_iff`), and have the rules of pairings.

* `Run.traced`: a loop with the events of its first rounds; `Run.tracedFrom`: with all of them,
  from where an opening leads; `Run.Descends.tracedFrom_eq`: these are all;
* `Run.Sends.loops`, `Run.Sends.budgeted`, `Run.Sends.tracedFrom`: the rules for loops whose rounds
  do the same.
-/

namespace Descent.Run

variable {α σ β γ δ ε : Type}

/-- The second run does what the first does, and returns what `f` makes of its result. -/
def Sends (f : β → γ) (first : Run α σ β) (second : Run α σ γ) : Prop :=
  second = f <$> first

/-- Runs with the same effects are paired from any one session. -/
theorem sends_iff {f : β → γ} {first : Run α σ β} {second : Run α σ γ} :
    Sends f first second ↔
      Paired Eq first second (fun b c s t => s = t ∧ c = f b) (fun e e' s t => e = e' ∧ s = t)
        fun _ => False := by
  constructor
  · rintro h s _ rfl
    rw [show second = f <$> first from h, map_eq_pure_bind, EStateM.run_bind]
    cases first.run s with
    | ok b s' => exact ⟨rfl, rfl⟩
    | error fault s' => exact .inr ⟨rfl, rfl⟩
  · intro h
    funext s
    change second.run s = (f <$> first).run s
    rw [map_eq_pure_bind, EStateM.run_bind]
    have h₁ := h s s rfl
    cases hfirst : first.run s <;> cases hsecond : second.run s <;>
      simp only [hfirst, hsecond, false_or] at h₁
    all_goals
      obtain ⟨rfl, rfl⟩ := h₁
      rfl

namespace Sends

variable {f : β → γ} {g : δ → ε} {first : Run α σ β} {second : Run α σ γ}

theorem pure {b : β} {c : γ} (h : c = f b) :
    Sends f (Pure.pure b : Run α σ β) (Pure.pure c) :=
  sends_iff.2 (.pure fun _ _ hst => ⟨hst, h⟩)

theorem bind {next : β → Run α σ δ} {next' : γ → Run α σ ε} (h : Sends f first second)
    (hnext : ∀ b, Sends g (next b) (next' (f b))) :
    Sends g (first >>= next) (second >>= next') :=
  sends_iff.2 ((sends_iff.1 h).bind fun b _ => .assuming fun hc => hc ▸ sends_iff.1 (hnext b))

/-- Runs that start alike may return what differs. -/
theorem after (run : Run α σ β) {next : β → Run α σ δ} {next' : β → Run α σ ε}
    (hnext : ∀ b, Sends g (next b) (next' b)) : Sends g (run >>= next) (run >>= next') :=
  bind (f := id) (id_map run).symm hnext

theorem ite {p q : Prop} [Decidable p] [Decidable q] {other : Run α σ β} {other' : Run α σ γ}
    (hiff : q ↔ p) (hpos : p → Sends f first second) (hneg : ¬p → Sends f other other') :
    Sends f (if p then first else other) (if q then second else other') :=
  sends_iff.2 (.ite hiff.symm (fun hp => sends_iff.1 (hpos hp)) fun hp => sends_iff.1 (hneg hp))

/-- Runs that start with the same check go on with what it found. -/
theorem check {e : Except Fault β} {next : β → Run α σ δ} {next' : β → Run α σ ε}
    (hnext : ∀ b, e = .ok b → Sends g (next b) (next' b)) :
    Sends g (Run.ofExcept e >>= next) (Run.ofExcept e >>= next') :=
  sends_iff.2 (.check (fun _ _ _ hst => ⟨rfl, hst⟩) fun b hb => sends_iff.1 (hnext b hb))

end Sends

/-! ## Loops -/

variable {S S' E E' R R' : Type}

/-- A round in terms of other states, events and results. -/
def Round.map (f : S → S') (g : E → E') (h : R → R') : Round S E R → Round S' E' R'
  | again event state => again (g event) (f state)
  | done last result => done (last.map g) (h result)

/-- A loop with the events of its first `count` rounds. -/
def traced (round : S → Run α σ (Round S E R)) (loop : S → Run α σ R) :
    (count : Nat) → S → Run α σ (List E × R)
  | 0, x => return ([], ← loop x)
  | count + 1, x => do
    match ← round x with
    | .again event y =>
      let (events, result) ← traced round loop count y
      return (event :: events, result)
    | .done last result => return (last.toList, result)

section

variable {round : S → Run α σ (Round S E R)} {loop : S → Run α σ R} {measure : S → Nat}

/-- A loop does the same with its events. -/
theorem Loops.snd_traced (hloop : Loops round loop) : ∀ count x,
    Prod.snd <$> traced round loop count x = loop x := by
  intro count
  induction count with
  | zero =>
    intro x
    rw [traced, map_bind]
    exact bind_pure (loop x)
  | succ count ih =>
    intro x
    rw [traced, map_bind, hloop x]
    refine bind_congr fun r => ?_
    cases r with
    | again event y =>
      rw [map_bind]
      exact (map_eq_pure_bind Prod.snd _).symm.trans (ih y)
    | done last result => rfl

/-- One round more than the measure allows for is a last one without an event. -/
theorem Descends.traced_succ (hround : Descends round measure) (hloop : Loops round loop) :
    ∀ count x, measure x ≤ count →
      traced round loop (count + 1) x = traced round loop count x := by
  intro count
  induction count with
  | zero =>
    intro x hx
    rw [traced, traced, hloop x, bind_assoc]
    refine (hround x).bind_congr fun r hr => ?_
    cases r with
    | again event y =>
      simp only [Round.events, List.length_singleton] at hr
      omega
    | done last result =>
      have hlength : last.toList.length ≤ measure x := Nat.le_of_add_right_le hr
      have hlast : last.toList = [] :=
        List.eq_nil_of_length_eq_zero (Nat.le_zero.1 (Nat.le_trans hlength hx))
      simp only [hlast, pure_bind]
  | succ count ih =>
    intro x hx
    rw [traced, traced]
    refine (hround x).bind_congr fun r hr => ?_
    cases r with
    | again event y =>
      simp only [Round.events, Round.left, List.length_singleton] at hr
      simp only [ih y (by omega)]
    | done last result => rfl

/-- **Rounds that the measure does not allow for add no events.** -/
theorem Descends.traced_eq (hround : Descends round measure) (hloop : Loops round loop)
    {count : Nat} {x : S} (hx : measure x ≤ count) :
    traced round loop count x = traced round loop (measure x) x := by
  induction hx with
  | refl => rfl
  | step hle ih => rw [hround.traced_succ hloop _ x hle, ih]

/-- A loop from where an opening leads, with the events of as many rounds as the measure allows
for. -/
def tracedFrom (opening : Run α σ S) (round : S → Run α σ (Round S E R)) (loop : S → Run α σ R)
    (measure : S → Nat) : Run α σ (List E × R) := do
  let x ← opening
  traced round loop (measure x) x

theorem Loops.snd_tracedFrom (hloop : Loops round loop) (opening : Run α σ S) :
    Prod.snd <$> tracedFrom opening round loop measure = opening >>= loop := by
  rw [tracedFrom, map_bind]
  exact bind_congr fun x => hloop.snd_traced _ x

/-- There are no more events than these, however many rounds are looked at. -/
theorem Descends.tracedFrom_eq (hround : Descends round measure) (hloop : Loops round loop)
    {opening : Run α σ S} {count : Nat}
    (hopening : opening.Keeps Invariant.none fun x => measure x ≤ count) :
    tracedFrom opening round loop measure = opening >>= traced round loop count :=
  hopening.bind_congr fun _ hx => (hround.traced_eq hloop hx).symm

end

namespace Sends

variable {round : S → Run α σ (Round S E R)} {round' : S' → Run α σ (Round S' E' R')}
  {loop : S → Run α σ R} {loop' : S' → Run α σ R'} {measure : S → Nat} {f : S → S'} {g : E → E'}
  {h : R → R'}

/-- Loops do the same if their rounds do. -/
theorem loops (hloop : Loops round loop) (hloop' : Loops round' loop')
    (hdescends : Descends round measure)
    (hround : ∀ x, Sends (Round.map f g h) (round x) (round' (f x))) (x : S) :
    Sends h (loop x) (loop' (f x)) := by
  induction hm : measure x using Nat.strongRecOn generalizing x with
  | _ m ih =>
    rw [Sends, hloop x, hloop' (f x), show round' (f x) = _ from hround x, map_bind, bind_map_left]
    refine (hdescends x).bind_congr fun r hr => ?_
    cases r with
    | again event y =>
      simp only [Round.events, Round.left, List.length_singleton] at hr
      exact ih (measure y) (by omega) y rfl
    | done last result => exact (map_pure h result).symm

/-- Loops with a budget do the same: what is left of the limit decides how they go on. -/
theorem budgeted {round : Nat → S → Run α σ (Round S E R)}
    {round' : Nat → S' → Run α σ (Round S' E' R')} {loop : Nat → S → Run α σ R}
    {loop' : Nat → S' → Run α σ R'} {done : S → Nat} {done' : S' → Nat} {measure : Nat → S → Nat}
    (hloop : ∀ limit, Loops (round limit) fun x => loop (limit - done x) x)
    (hloop' : ∀ limit, Loops (round' limit) fun x => loop' (limit - done' x) x)
    (hdescends : ∀ limit, Descends (round limit) (measure limit))
    (hround : ∀ limit x, Sends (Round.map f g h) (round limit x) (round' limit (f x)))
    (hdone : ∀ x, done' (f x) = done x) (budget : Nat) (x : S) :
    Sends h (loop budget x) (loop' budget (f x)) := by
  have hleft : budget + done x - done x = budget := Nat.add_sub_cancel budget (done x)
  have hloops := loops (hloop (budget + done x)) (hloop' (budget + done x)) (hdescends _)
    (hround _) x
  rwa [hdone, hleft] at hloops

/-- Loops whose rounds do the same have events that correspond. -/
theorem traced (hloop : ∀ x, Sends h (loop x) (loop' (f x)))
    (hround : ∀ x, Sends (Round.map f g h) (round x) (round' (f x))) : ∀ count x,
    Sends (Prod.map (List.map g) h) (Run.traced round loop count x)
      (Run.traced round' loop' count (f x)) := by
  intro count
  induction count with
  | zero => exact fun x => .bind (hloop x) fun result => .pure rfl
  | succ count ih =>
    intro x
    refine .bind (hround x) fun r => ?_
    cases r with
    | again event y => exact .bind (ih y) fun p => .pure rfl
    | done last result => exact .pure (by cases last <;> rfl)

theorem tracedFrom {opening : Run α σ S} {opening' : Run α σ S'} {measure' : S' → Nat}
    (hopening : Sends f opening opening')
    (hround : ∀ x, Sends (Round.map f g h) (round x) (round' (f x)))
    (hloop : ∀ x, Sends h (loop x) (loop' (f x))) (hmeasure : ∀ x, measure' (f x) = measure x) :
    Sends (Prod.map (List.map g) h) (Run.tracedFrom opening round loop measure)
      (Run.tracedFrom opening' round' loop' measure') :=
  .bind hopening fun x => hmeasure x ▸ .traced hloop hround _ x

end Sends

end Descent.Run
