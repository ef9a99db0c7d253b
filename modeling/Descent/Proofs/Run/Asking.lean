import Descent.Proofs.Run.Settled

/-!
# Loops that ask when to stop

Before each of its rounds a loop asks a criterion and looks at its budget. Where the criterion and
the rounds always give the same answers, the loop takes the course that these answers determine, and
criteria can be compared: they are asked along the same course.

* `Run.asking`: a round with the questions before it.
* `Run.exists_answers`: what rounds answer that always do the same.
* `Run.Answers`: what the rounds of a loop answer; `Run.Answers.outcome`, the outcome of the loop
  for a criterion and a budget; `Run.Answers.settles`.
* `Run.Answers.exists_outcome_any`: a loop that stops where one of several criteria holds has the
  outcome that it has with one of them alone.
* `Run.Answers.Reports.outcome_weaken`: with a criterion that holds wherever another one does, a
  loop stops no later.
* `Run.Answers.outcome_capped`: a criterion on the count is a budget.
-/

namespace Descent.Run

variable {α σ S E R P V : Type}

/-- A round that is gone through unless a criterion holds or a budget is spent. -/
def asking (stop : S → Run α σ Bool) (count : S → Nat) (met spent : S → R) (limit : Nat)
    (go : S → Run α σ (Round S E R)) (x : S) : Run α σ (Round S E R) := do
  if ← stop x then return .done none (met x)
  else if limit ≤ count x then return .done none (spent x)
  else go x

/-- **Rounds that always do the same have answers**, and what the rounds keep is known of them. -/
theorem exists_answers {I : Invariant α σ} {on : Logging.Source → Bool} {session : Session α σ}
    {go : S → Run α σ (Round S E R)} {Q : S → Round S E R → Prop}
    (hself : ∀ x, (Comparison.apart I on).Compares Eq (go x) (go x))
    (hkeeps : ∀ x, (go x).Keeps Invariant.none (Q x)) (hsession : session.Meets I on) :
    ∃ answers : S → Except Fault (Round S E R),
      (∀ x, (go x).Settles I on (answers x)) ∧ ∀ x r, answers x = .ok r → Q x r := by
  choose answers hanswers using fun x => exists_settles (hself x)
  refine ⟨answers, hanswers, fun x r hr => ?_⟩
  obtain ⟨session', -, hrun⟩ := hanswers x session hsession
  rw [hr] at hrun
  exact ((hkeeps x).of_ok trivial hrun).2

/-- What a loop counts, what it returns where its criterion holds or its budget is spent, and what
its rounds answer otherwise. -/
structure Answers (S E R : Type) where
  count : S → Nat
  met : S → R
  spent : S → R
  go : S → Except Fault (Round S E R)

namespace Answers

/-- What a state leads to where the criterion does not hold, given what later states lead to. -/
def next (a : Answers S E R) (limit : Nat) (later : S → Except Fault R) (x : S) : Except Fault R :=
  if limit ≤ a.count x then .ok (a.spent x)
  else
    match a.go x with
    | .error fault => .error fault
    | .ok (.done _ result) => .ok result
    | .ok (.again _ y) => later y

/-- The outcome of a loop, given where its criterion holds, its budget, and a number of rounds that
it is not longer than. -/
def outcome (a : Answers S E R) (holds : S → Bool) (limit : Nat) :
    (rounds : Nat) → S → Except Fault R
  | 0, x => .ok (a.spent x)
  | rounds + 1, x =>
    if holds x then .ok (a.met x) else a.next limit (a.outcome holds limit rounds) x

/-- Every round that a loop goes on from within its budget uses up some of a measure. -/
def Descends (a : Answers S E R) (limit : Nat) (measure : S → Nat) : Prop :=
  ∀ x event y, a.count x < limit → a.go x = .ok (.again event y) → measure y < measure x

/-- What is returned has the count and the point of the last state, and a round counts one or stays
at its point. -/
structure Reports (a : Answers S E R) (point : S → P) (counted : R → Nat) (reached : R → P) :
    Prop where
  met : ∀ x, counted (a.met x) = a.count x ∧ reached (a.met x) = point x
  spent : ∀ x, counted (a.spent x) = a.count x ∧ reached (a.spent x) = point x
  done : ∀ x last result, a.go x = .ok (.done last result) →
    counted result = a.count x ∧ reached result = point x
  again : ∀ x event y, a.go x = .ok (.again event y) →
    a.count y = a.count x + 1 ∨ a.count y = a.count x ∧ point y = point x

variable {a : Answers S E R} {holds holds' : S → Bool} {limit : Nat} {measure : S → Nat}
  {point : S → P} {counted : R → Nat} {reached : R → P}

theorem outcome_of_holds {x : S} (h : holds x = true) (rounds : Nat) :
    a.outcome holds limit (rounds + 1) x = .ok (a.met x) := by
  rw [outcome, if_pos h]

theorem outcome_of_not_holds {x : S} (h : holds x = false) (rounds : Nat) :
    a.outcome holds limit (rounds + 1) x = a.next limit (a.outcome holds limit rounds) x := by
  rw [outcome, h, if_neg Bool.false_ne_true]

/-- Where the criterion does not hold, a loop ends whatever comes later, or goes on to a state. -/
theorem next_cases (a : Answers S E R) (limit : Nat) (x : S) :
    (∃ e, ∀ later, a.next limit later x = e) ∨
      a.count x < limit ∧ ∃ event y, a.go x = .ok (.again event y) ∧
        ∀ later, a.next limit later x = later y := by
  unfold next
  by_cases hspent : limit ≤ a.count x
  · exact .inl ⟨.ok (a.spent x), fun later => if_pos hspent⟩
  · simp only [if_neg hspent]
    cases hgo : a.go x with
    | error fault => exact .inl ⟨.error fault, fun later => rfl⟩
    | ok r =>
      cases r with
      | done last result => exact .inl ⟨.ok result, fun later => rfl⟩
      | again event y => exact .inr ⟨Nat.lt_of_not_le hspent, event, y, rfl, fun later => rfl⟩

/-- A loop that is not longer than a number of rounds has the same outcome within more rounds. -/
theorem Descends.outcome_rounds (h : a.Descends limit measure) : ∀ {rounds rounds' : Nat} {x : S},
    measure x < rounds → measure x < rounds' →
      a.outcome holds limit rounds x = a.outcome holds limit rounds' x := by
  intro rounds
  induction rounds with
  | zero => exact fun hlt => absurd hlt (Nat.not_lt_zero _)
  | succ rounds ih =>
    intro rounds' x hlt hlt'
    obtain ⟨rounds', rfl⟩ := Nat.exists_eq_add_one.2 (Nat.zero_lt_of_lt hlt')
    cases hx : holds x with
    | true => rw [outcome_of_holds hx, outcome_of_holds hx]
    | false =>
      rw [outcome_of_not_holds hx, outcome_of_not_holds hx]
      obtain ⟨e, he⟩ | ⟨hleft, event, y, hgo, hy⟩ := a.next_cases limit x
      · rw [he, he]
      · have hless := h x event y hleft hgo
        rw [hy, hy]
        exact ih (by omega) (by omega)

/-- **A loop has the outcome that its answers determine.** -/
theorem settles (a : Answers S E R) {I : Invariant α σ} {on : Logging.Source → Bool}
    {stop : S → Run α σ Bool} {go : S → Run α σ (Round S E R)} {loop : S → Run α σ R}
    (hloop : Loops (asking stop a.count a.met a.spent limit go) loop)
    (hstop : ∀ x, (stop x).Settles I on (.ok (holds x)))
    (hgo : ∀ x, (go x).Settles I on (a.go x)) (hmeasure : a.Descends limit measure) :
    ∀ rounds x, measure x < rounds → (loop x).Settles I on (a.outcome holds limit rounds x) := by
  intro rounds
  induction rounds with
  | zero => exact fun x hlt => absurd hlt (Nat.not_lt_zero _)
  | succ rounds ih =>
    intro x hlt
    rw [hloop x, asking, bind_assoc]
    refine .bind_ok (hstop x) ?_
    cases hx : holds x with
    | true =>
      rw [outcome_of_holds hx]
      exact .pure
    | false =>
      rw [outcome_of_not_holds hx, next]
      by_cases hspent : limit ≤ a.count x
      · simp only [Bool.false_eq_true, if_false, if_pos hspent]
        exact .pure
      · simp only [Bool.false_eq_true, if_false, if_neg hspent]
        have hround := hgo x
        cases hanswer : a.go x with
        | error fault =>
          rw [hanswer] at hround
          exact .bind_error hround
        | ok r =>
          rw [hanswer] at hround
          refine .bind_ok hround ?_
          cases r with
          | done last result => exact .pure
          | again event y =>
            have hless := hmeasure x event y (Nat.lt_of_not_le hspent) hanswer
            exact ih y (by omega)

/-- **A loop that stops where one of several criteria holds** has the outcome that it has with one
of them alone. -/
theorem exists_outcome_any (a : Answers S E R) (limit : Nat) {criteria : List (S → Bool)}
    (hsome : criteria ≠ []) (hany : ∀ x, holds x = criteria.any (· x)) : ∀ rounds x,
    ∃ holds' ∈ criteria, a.outcome holds limit rounds x = a.outcome holds' limit rounds x := by
  obtain ⟨some, hmem⟩ := List.exists_mem_of_ne_nil criteria hsome
  intro rounds
  induction rounds with
  | zero => exact fun x => ⟨some, hmem, rfl⟩
  | succ rounds ih =>
    intro x
    cases hx : holds x with
    | true =>
      obtain ⟨holds', hholds, hfirst⟩ := List.any_eq_true.1 ((hany x).symm.trans hx)
      exact ⟨holds', hholds, by rw [outcome_of_holds hx, outcome_of_holds hfirst]⟩
    | false =>
      -- no criterion holds here, so all of them leave the loop to its round
      have hnone : ∀ holds' ∈ criteria, holds' x = false := fun holds' hholds =>
        Bool.of_not_eq_true (List.any_eq_false.1 ((hany x).symm.trans hx) holds' hholds)
      obtain ⟨e, he⟩ | ⟨-, event, y, -, hy⟩ := a.next_cases limit x
      · refine ⟨some, hmem, ?_⟩
        rw [outcome_of_not_holds hx, outcome_of_not_holds (hnone some hmem), he, he]
      · obtain ⟨holds', hholds, hlater⟩ := ih y
        refine ⟨holds', hholds, ?_⟩
        rw [outcome_of_not_holds hx, outcome_of_not_holds (hnone holds' hholds), hy, hy, hlater]

/-- A loop returns no state before its first one, and none with the count of the first one but
another point. -/
theorem Reports.outcome_later (h : a.Reports point counted reached) : ∀ {rounds : Nat} {x : S}
    {result : R}, a.outcome holds limit rounds x = .ok result →
      a.count x ≤ counted result ∧ (counted result = a.count x → reached result = point x) := by
  have hlast {x : S} {result : R}
      (hresult : counted result = a.count x ∧ reached result = point x) :
      a.count x ≤ counted result ∧ (counted result = a.count x → reached result = point x) :=
    ⟨Nat.le_of_eq hresult.1.symm, fun _ => hresult.2⟩
  intro rounds
  induction rounds with
  | zero =>
    rintro x _ ⟨⟩
    exact hlast (h.spent x)
  | succ rounds ih =>
    intro x result hresult
    cases hx : holds x with
    | true =>
      rw [outcome_of_holds hx] at hresult
      cases hresult
      exact hlast (h.met x)
    | false =>
      rw [outcome_of_not_holds hx, next] at hresult
      split at hresult
      · cases hresult
        exact hlast (h.spent x)
      · split at hresult
        · cases hresult
        · rename_i hdone
          cases hresult
          exact hlast (h.done x _ _ hdone)
        · rename_i event y hagain
          obtain ⟨hle, hpoint⟩ := ih hresult
          obtain hone | ⟨hcount, hsame⟩ := h.again x event y hagain
          · exact ⟨by omega, fun hcounted => by omega⟩
          · exact ⟨hcount ▸ hle, fun hcounted => (hpoint (hcounted.trans hcount.symm)).trans hsame⟩

/-- **With a criterion that holds wherever another one does, a loop stops no later**, and at the
same point if it stops at the same count. -/
theorem Reports.outcome_weaken (h : a.Reports point counted reached)
    (hweaker : ∀ x, holds x = true → holds' x = true) : ∀ {rounds : Nat} {x : S} {result : R},
    a.outcome holds limit rounds x = .ok result →
      ∃ earlier, a.outcome holds' limit rounds x = .ok earlier ∧
        counted earlier ≤ counted result ∧
          (counted earlier = counted result → reached earlier = reached result) := by
  intro rounds
  induction rounds with
  | zero => exact fun hresult => ⟨_, hresult, Nat.le_refl _, fun _ => rfl⟩
  | succ rounds ih =>
    intro x result hresult
    cases hx' : holds' x with
    | true =>
      obtain ⟨hle, hpoint⟩ := h.outcome_later hresult
      obtain ⟨hcounted, hreached⟩ := h.met x
      refine ⟨a.met x, outcome_of_holds hx' rounds, hcounted ▸ hle, fun heq => ?_⟩
      rw [hreached, hpoint (heq.symm.trans hcounted)]
    | false =>
      have hx : holds x = false :=
        Bool.of_not_eq_true fun hx => Bool.false_ne_true (hx'.symm.trans (hweaker x hx))
      rw [outcome_of_not_holds hx']
      rw [outcome_of_not_holds hx] at hresult
      obtain ⟨e, he⟩ | ⟨-, event, y, -, hy⟩ := a.next_cases limit x
      · rw [he] at hresult ⊢
        exact ⟨result, hresult, Nat.le_refl _, fun _ => rfl⟩
      · rw [hy] at hresult ⊢
        exact ih hresult

/-- **A criterion on the count is a budget**, but for the reason that is given for the end. -/
theorem outcome_capped (limit : Nat) {view : R → V}
    (hview : ∀ x, view (a.met x) = view (a.spent x)) {cap : Nat}
    (hcapped : ∀ x, holds' x = (decide (cap ≤ a.count x) || holds x)) : ∀ rounds x,
    view <$> a.outcome holds' limit rounds x =
      view <$> a.outcome holds (min cap limit) rounds x := by
  intro rounds
  induction rounds with
  | zero => exact fun x => rfl
  | succ rounds ih =>
    intro x
    have hx' := hcapped x
    cases hx : holds x with
    | true =>
      rw [hx, Bool.or_true] at hx'
      rw [outcome_of_holds hx, outcome_of_holds hx']
    | false =>
      rw [hx, Bool.or_false] at hx'
      rw [outcome_of_not_holds hx]
      by_cases hcap : cap ≤ a.count x
      · rw [decide_eq_true hcap] at hx'
        rw [outcome_of_holds hx', next, if_pos (Nat.le_trans (Nat.min_le_left _ _) hcap)]
        exact congrArg Except.ok (hview x)
      · rw [decide_eq_false hcap] at hx'
        have hspent : min cap limit ≤ a.count x ↔ limit ≤ a.count x := by omega
        rw [outcome_of_not_holds hx', next, next]
        simp only [hspent]
        split
        · rfl
        · cases a.go x with
          | error fault => rfl
          | ok r =>
            cases r with
            | done last result => rfl
            | again event y => exact ih y

end Answers

end Descent.Run
