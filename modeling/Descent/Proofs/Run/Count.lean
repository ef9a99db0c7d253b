import Descent.Proofs.Run.Loop

/-!
# Counts along a run

A count that runs carry along, such as the number of calls of a function, means something for the
session: the invariant `I k` holds where the count is `k`. `Run.Counts I limit k run count` says
that `run` takes the count from `k` to what `count` reads off its result, and that the count is
never above `limit`, not even where the run ends in a fault.

* `callsMade calls`: the meaning of a count of calls, for callers whose state tells how many calls
  there have been;
* `Run.AddsOne I run`: however the run ends, it adds one to the count;
* `Run.Loops.counts`: the rule for loops;
* `Run.Counts.bounds`: what is proved for all meanings of a count bounds the counts themselves, as
  every run agrees with a count that means nothing.
-/

namespace Descent

variable {α σ β γ : Type}

/-- So many calls have been made. -/
def callsMade (calls : σ → Nat) (k : Nat) : Invariant α σ :=
  fun _ caller => calls caller = k

namespace Run

/-- The run takes the count from `k` to `count b` for its result `b`; no count on the way is above
the limit. -/
def Counts (I : Nat → Invariant α σ) (limit k : Nat) (run : Run α σ β) (count : β → Nat) : Prop :=
  Triple (·.Has (I k)) run (fun b s => s.Has (I (count b)) ∧ count b ≤ limit)
    fun _ s => ∃ j ≤ limit, s.Has (I j)

/-- However the run ends, it adds one to the count. -/
def AddsOne (I : Nat → Invariant α σ) (run : Run α σ β) : Prop :=
  ∀ k, Triple (·.Has (I k)) run (fun _ s => s.Has (I (k + 1))) fun _ s => s.Has (I (k + 1))

namespace AddsOne

variable {I : Nat → Invariant α σ} {run : Run α σ β}

/-- What follows may leave the count alone. -/
theorem bind {next : β → Run α σ γ} (h : run.AddsOne I)
    (hnext : ∀ b k, (next b).Keeps (I k) fun _ => True) : (run >>= next).AddsOne I := by
  intro k
  refine Triple.bind (h k) fun b => ?_
  exact (hnext b (k + 1)).conseq (fun _ hs => hs) (fun _ _ hs => hs.1) fun _ _ hs => hs

/-- Adding one is the same from every number on. -/
theorem shift (h : run.AddsOne I) (base : Nat) : run.AddsOne fun j => I (base + j) :=
  fun k => h (base + k)

theorem unmarked (run : Run α σ β) : run.AddsOne fun _ => Invariant.none :=
  fun _ => (keeps_none run).conseq (fun _ hs => hs) (fun _ _ _ => trivial) fun _ _ _ => trivial

end AddsOne

namespace Counts

variable {I : Nat → Invariant α σ} {limit limit' k : Nat} {run : Run α σ β} {count : β → Nat}

theorem pure {b : β} (hcount : count b = k) (hle : k ≤ limit) :
    Counts I limit k (pure b) count :=
  Triple.pure fun _ hs => ⟨hcount.symm ▸ hs, Nat.le_trans (Nat.le_of_eq hcount) hle⟩

theorem throw {fault : Fault} (hle : k ≤ limit) : Counts I limit k (throw fault) count :=
  Triple.throw fun _ hs => ⟨k, hle, hs⟩

/-- A run may be given more than it needs. -/
theorem mono (h : Counts I limit k run count) (hle : limit ≤ limit') :
    Counts I limit' k run count :=
  h.conseq (fun _ hs => hs) (fun _ _ hs => ⟨hs.1, Nat.le_trans hs.2 hle⟩)
    fun _ _ ⟨j, hj, hs⟩ => ⟨j, Nat.le_trans hj hle, hs⟩

theorem bind {next : β → Run α σ γ} {count' : γ → Nat} (h : Counts I limit k run count)
    (hle : limit ≤ limit')
    (hnext : ∀ b, count b ≤ limit → Counts I limit' (count b) (next b) count') :
    Counts I limit' k (run >>= next) count' := by
  refine Triple.bind (h.conseq (fun _ hs => hs) (fun _ _ hs => hs) fun _ _ ⟨j, hj, hs⟩ =>
    ⟨j, Nat.le_trans hj hle, hs⟩) fun b s hs => ?_
  exact hnext b hs.2 s hs.1

theorem ite {c : Prop} [Decidable c] {other : Run α σ β} (hpos : c → Counts I limit k run count)
    (hneg : ¬c → Counts I limit k other count) :
    Counts I limit k (if c then run else other) count :=
  Triple.ite hpos hneg

theorem ofExcept {e : Except Fault β} (hle : k ≤ limit) :
    Counts I limit k (Run.ofExcept e) fun _ => k := by
  cases e with
  | ok b => exact pure rfl hle
  | error fault => exact throw hle

/-- A run that starts with a check goes on with what the check found. -/
theorem check {e : Except Fault β} {next : β → Run α σ γ} {count : γ → Nat} (hle : k ≤ limit)
    (h : ∀ b, e = .ok b → Counts I limit k (next b) count) :
    Counts I limit k (Run.ofExcept e >>= next) count := by
  cases e with
  | ok b => exact h b rfl
  | error fault => exact throw hle

/-- A run that keeps what the count means leaves the count alone. -/
theorem of_keeps {Q : β → Prop} (h : run.Keeps (I k) Q) : Counts I k k run fun _ => k :=
  h.conseq (fun _ hs => hs) (fun _ _ hs => ⟨hs.1, Nat.le_refl k⟩)
    fun _ _ hs => ⟨k, Nat.le_refl k, hs⟩

/-- A run that leaves the count alone goes on with what it is known to have found. -/
theorem keeps_bind {Q : β → Prop} {next : β → Run α σ γ} {count' : γ → Nat}
    (h : run.Keeps (I k) Q) (hle : k ≤ limit)
    (hnext : ∀ b, Q b → Counts I limit k (next b) count') :
    Counts I limit k (run >>= next) count' := by
  refine Triple.bind (h.conseq (fun _ hs => hs) (fun _ _ hs => hs) fun _ _ hs => ⟨k, hle, hs⟩)
    fun b s hs => ?_
  exact hnext b hs.2 s hs.1

/-- The count may be read off something made of the result. -/
theorem of_map {f : β → γ} {count' : γ → Nat} (h : Counts I limit k (f <$> run) count') :
    Counts I limit k run fun b => count' (f b) :=
  Triple.of_map h

theorem of_addsOne (h : run.AddsOne I) (k : Nat) : Counts I (k + 1) k run fun _ => k + 1 :=
  (h k).conseq (fun _ hs => hs) (fun _ _ hs => ⟨hs, Nat.le_refl _⟩)
    fun _ _ hs => ⟨k + 1, Nat.le_refl _, hs⟩

/-- A run that counts from zero on counts from any other number on. -/
theorem shift (h : Counts (fun j => I (k + j)) limit 0 run count) :
    Counts I (k + limit) k run fun b => k + count b :=
  h.conseq (fun _ hs => hs) (fun _ _ hs => ⟨hs.1, Nat.add_le_add_left hs.2 k⟩)
    fun _ _ ⟨j, hj, hs⟩ => ⟨k + j, Nat.add_le_add_left hj k, hs⟩

/-- What is known of the results of a run, besides their counts. -/
theorem and_keeps {Q : β → Prop} (h : Counts I limit k run count)
    (hkeeps : run.Keeps Invariant.none Q) :
    Triple (·.Has (I k)) run (fun b s => (s.Has (I (count b)) ∧ count b ≤ limit) ∧ Q b)
      fun _ s => ∃ j ≤ limit, s.Has (I j) :=
  Triple.and_keeps h hkeeps

/-- A run that counts without a meaning has results within its limit. -/
theorem bounds (h : Counts (fun _ => Invariant.none) limit k run count) :
    run.Keeps Invariant.none fun b => count b ≤ limit :=
  h.conseq (fun _ _ => trivial) (fun _ _ hs => ⟨trivial, hs.2⟩) fun _ _ _ => trivial

end Counts

/-- The count after a round, read off the next state or the result. -/
def Round.count {S E R : Type} (ofState : S → Nat) (ofResult : R → Nat) : Round S E R → Nat
  | again _ state => ofState state
  | done _ result => ofResult result

/-- The rule for loops that count: what a state has counted and what is left to it together never
grow, and no round counts more than is left. -/
theorem Loops.counts {S E R : Type} {round : S → Run α σ (Round S E R)} {loop : S → Run α σ R}
    {I : Nat → Invariant α σ} {measure ofState left : S → Nat} {ofResult : R → Nat}
    (hloop : Loops round loop) (hround : Descends round measure)
    (hcounts : ∀ x, (round x).Counts I (ofState x + left x) (ofState x)
      (Round.count ofState ofResult))
    (hleft : ∀ x, (round x).Keeps Invariant.none fun r => ∀ event y, r = .again event y →
      ofState y + left y ≤ ofState x + left x) (x : S) :
    (loop x).Counts I (ofState x + left x) (ofState x) ofResult := by
  have htriple (limit : Nat) (y : S) :
      Triple (fun s : Session α σ => s.Has (I (ofState y)) ∧ ofState y + left y ≤ limit) (round y)
        (fun
          | .again _ z => fun s => s.Has (I (ofState z)) ∧ ofState z + left z ≤ limit
          | .done _ result => fun s => s.Has (I (ofResult result)) ∧ ofResult result ≤ limit)
        fun _ s => ∃ j ≤ limit, s.Has (I j) := by
    rintro s ⟨hs, hle⟩
    have h := (((hcounts y).mono hle).and_keeps (hleft y)) s hs
    cases hr : (round y).run s with
    | error fault s' =>
      rw [hr] at h
      exact h
    | ok r s' =>
      rw [hr] at h
      cases r with
      | again event z => exact ⟨h.1.1, Nat.le_trans (h.2 event z rfl) hle⟩
      | done last result => exact h.1
  exact (hloop.triple hround (htriple (ofState x + left x)) x).conseq
    (fun _ hs => ⟨hs, Nat.le_refl _⟩) (fun _ _ hs => hs) fun _ _ hs => hs

end Run

end Descent
