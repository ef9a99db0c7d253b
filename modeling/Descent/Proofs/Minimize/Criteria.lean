import Descent.Proofs.Minimize.Known
import Descent.Proofs.Run.Asking

/-!
# Criteria that are combined

A minimization whose criterion is put together from others takes the course that it takes with each
of them alone, and stops at the first place where one of them holds.

* `Criterion.leaves`: the criteria that a criterion is put together from;
  `Criterion.holds_settles`: it holds where one of them does. `CriterionLike.orElse_leaves`: the
  leaves of a union.
* `Criterion.Earliest`: how the outcomes of a minimization depend on its criterion and its budget;
  `Criterion.Asked.earliest`: outcomes of loops that ask the leaves of their criterion.
* `Minimize.Inquiry`: minimizations that ask their criterion and their budget before every round;
  `Minimize.Inquiry.Conducts.earliest`, and `Minimize.account_earliest` for what was read.
* `Conjugate.account_earliest`, `Newton.account_earliest`: the outcomes of both methods.
* `combined_criteria_stop_earliest`: both minimizers, for data as callers give them.
-/

namespace Descent

/-! ## Trees of criteria -/

namespace Criterion

variable {α σ : Type}

mutual

/-- The criteria that a criterion is put together from. -/
def leaves : Criterion α σ → List (Criterion α σ)
  | any members => leavesOf members
  | c => [c]

/-- The criteria that several criteria are put together from. -/
def leavesOf : List (Criterion α σ) → List (Criterion α σ)
  | [] => []
  | c :: rest => c.leaves ++ leavesOf rest

end

@[simp] theorem leaves_any (members : List (Criterion α σ)) :
    (any members).leaves = members.flatMap leaves := by
  rw [leaves]
  induction members with
  | nil => rfl
  | cons c rest ih => rw [leavesOf, ih, List.flatMap_cons]

mutual

/-- A leaf is not put together from others. -/
theorem leaves_of_mem {leaf : Criterion α σ} : ∀ c : Criterion α σ, leaf ∈ c.leaves →
    leaf.leaves = [leaf]
  | gradientNorm _, h | iterations _, h | predicate _, h | unusable, h => by
    obtain rfl := List.mem_singleton.1 h
    rfl
  | any members, h => by
    rw [leaves] at h
    exact leaves_of_mem_leavesOf members h

theorem leaves_of_mem_leavesOf {leaf : Criterion α σ} : ∀ members : List (Criterion α σ),
    leaf ∈ leavesOf members → leaf.leaves = [leaf]
  | [], h => absurd h List.not_mem_nil
  | c :: rest, h => by
    rw [leavesOf, List.mem_append] at h
    exact h.elim (leaves_of_mem c) (leaves_of_mem_leavesOf rest)

end

section

variable [Numeral α] {I : Invariant α σ} {on : Logging.Source → Bool}

/-- Every leaf always gives an answer, and always the same one. -/
def Total (I : Invariant α σ) (on : Logging.Source → Bool) (c : Criterion α σ) : Prop :=
  ∀ leaf ∈ c.leaves, ∀ {n : Nat} (g : Vec α n) (k : Nat), ∃ answer,
    (leaf.holds g (.whole k)).Settles I on (.ok answer)

theorem Total.of_mem {c leaf : Criterion α σ} (h : c.Total I on) (hleaf : leaf ∈ c.leaves) :
    leaf.Total I on := by
  intro other hother
  rw [leaves_of_mem c hleaf, List.mem_singleton] at hother
  exact hother ▸ h leaf hleaf

/-- A criterion without leaves never holds. -/
theorem determined_nil :
    (CriterionLike.criterion (any []) : CriterionLike α σ).Determined I on := by
  rintro _ ⟨⟩ n g k
  refine ⟨.ok false, ?_⟩
  rw [holds, anyHolds]
  exact .pure

variable {n : Nat} {g : Vec α n} {k : Nat} {verdict : Criterion α σ → Bool}

mutual

/-- **A criterion holds where one of its leaves does.** -/
theorem holds_settles : ∀ c : Criterion α σ,
    (∀ leaf ∈ c.leaves, (leaf.holds g (.whole k)).Settles I on (.ok (verdict leaf))) →
      (c.holds g (.whole k)).Settles I on (.ok (c.leaves.any verdict))
  | gradientNorm _, h | iterations _, h | predicate _, h | unusable, h => by
    have hself := h _ (List.mem_singleton_self _)
    rwa [← Bool.or_false (verdict _)] at hself
  | any members, h => by
    rw [leaves] at h ⊢
    rw [holds]
    exact anyHolds_settles members h

theorem anyHolds_settles : ∀ members : List (Criterion α σ),
    (∀ leaf ∈ leavesOf members, (leaf.holds g (.whole k)).Settles I on (.ok (verdict leaf))) →
      (anyHolds g (.whole k) members).Settles I on (.ok ((leavesOf members).any verdict))
  | [], _ => by
    rw [anyHolds]
    exact .pure
  | c :: rest, h => by
    rw [leavesOf] at h
    rw [anyHolds, leavesOf, List.any_append]
    refine .bind_ok (holds_settles c fun leaf hleaf => h leaf (List.mem_append_left _ hleaf)) ?_
    cases c.leaves.any verdict with
    | true => exact .pure
    | false => exact anyHolds_settles rest fun leaf hleaf => h leaf (List.mem_append_right _ hleaf)

end

/-- What the leaves answer between vectors of one length. -/
theorem exists_verdict (I : Invariant α σ) (on : Logging.Source → Bool) (n : Nat) :
    ∃ verdict : Criterion α σ → Vec α n → Nat → Bool, ∀ c : Criterion α σ, c.Total I on →
      ∀ (g : Vec α n) (k : Nat), (c.holds g (.whole k)).Settles I on
        (.ok (c.leaves.any (verdict · g k))) := by
  have hanswer (leaf : Criterion α σ) (g : Vec α n) (k : Nat) : ∃ answer,
      (∃ answer, (leaf.holds g (.whole k)).Settles I on (.ok answer)) →
        (leaf.holds g (.whole k)).Settles I on (.ok answer) := by
    by_cases h : ∃ answer, (leaf.holds g (.whole k)).Settles I on (.ok answer)
    · obtain ⟨answer, hsettles⟩ := h
      exact ⟨answer, fun _ => hsettles⟩
    · exact ⟨false, fun hsome => absurd hsome h⟩
  choose verdict hverdict using hanswer
  exact ⟨verdict, fun c hc g k =>
    holds_settles c fun leaf hleaf => hverdict leaf g k (hc leaf hleaf g k)⟩

/-- A limit to the iterations is judged by their number. -/
theorem verdict_iterations {verdict : Criterion α σ → Vec α n → Nat → Bool}
    (h : ∀ c : Criterion α σ, c.Total I on → ∀ (g : Vec α n) (k : Nat),
      (c.holds g (.whole k)).Settles I on (.ok (c.leaves.any (verdict · g k))))
    {session : Session α σ} (hsession : session.Meets I on) (limit : Nat) (g : Vec α n) (k : Nat) :
    verdict (.iterations limit) g k = decide (limit ≤ k) := by
  have hasked {m : Nat} (v : Vec α m) (j : Nat) :
      ((iterations limit : Criterion α σ).holds v (.whole j)).Settles I on
        (.ok (decide (limit ≤ j))) := by
    have hatLeast : (Number.whole j : Number α).isAtLeast limit = decide (limit ≤ j) := by
      simp [Number.isAtLeast]
    rw [holds, hatLeast]
    exact .pure
  have htotal : (iterations limit : Criterion α σ).Total I on := by
    intro leaf hleaf m v j
    obtain rfl := List.mem_singleton.1 hleaf
    exact ⟨_, hasked v j⟩
  have hanswer := (h _ htotal g k).unique (hasked g k) hsession
  rw [← Except.ok.inj hanswer]
  exact (Bool.or_false _).symm

/-! ## Outcomes with several criteria -/

variable {Q V : Type}

/-- How the outcomes of a minimization depend on its criterion and its budget, given what they say
of the number of iterations and of the point, and what else of them is looked at. -/
structure Earliest (I : Invariant α σ) (on : Logging.Source → Bool)
    (outcome : Criterion α σ → Nat → Except Fault Q) (iterations : Q → Nat) (point : Q → Array α)
    (view : Q → V) : Prop where
  /-- The outcome is the one with some leaf alone. -/
  leaf : ∀ c K, c.Total I on → c.leaves ≠ [] →
    ∃ leaf ∈ c.leaves, outcome c K = outcome leaf K
  /-- No leaf alone stops earlier, nor at another point after as many iterations. -/
  least : ∀ c K, c.Total I on → ∀ leaf ∈ c.leaves, ∀ later, outcome leaf K = .ok later →
    ∃ earlier, outcome c K = .ok earlier ∧ iterations earlier ≤ iterations later ∧
      (iterations earlier = iterations later → point earlier = point later)
  /-- Neither the order nor the nesting of the leaves matters. -/
  order : ∀ c d K, c.Total I on → d.Total I on → (∀ leaf, leaf ∈ c.leaves ↔ leaf ∈ d.leaves) →
    outcome c K = outcome d K
  /-- A limit to the iterations among the leaves is a limit to the budget. -/
  cap : ∀ c d K (k : Nat), c.Total I on → d.Total I on →
    (∀ leaf, leaf ∈ c.leaves ↔ leaf = .iterations k ∨ leaf ∈ d.leaves) →
      view <$> outcome c K = view <$> outcome d (min k K)

variable {outcome : Criterion α σ → Nat → Except Fault Q} {counted : Q → Nat} {point : Q → Array α}
  {view : Q → V}

/-- Outcomes that do not depend on the criterion and the budget at all. -/
theorem Earliest.of_error {fault : Fault}
    (h : ∀ c K, c.Total I on → outcome c K = .error fault) :
    Earliest I on outcome counted point view where
  leaf c K hc hsome := by
    obtain ⟨leaf, hleaf⟩ := List.exists_mem_of_ne_nil _ hsome
    exact ⟨leaf, hleaf, (h c K hc).trans (h leaf K (hc.of_mem hleaf)).symm⟩
  least c K hc leaf hleaf later hlater := by
    cases (h leaf K (hc.of_mem hleaf)).symm.trans hlater
  order c d K hc hd _ := (h c K hc).trans (h d K hd).symm
  cap c d K k hc hd _ := by rw [h c K hc, h d _ hd]

/-- What the outcomes are with other criteria does not matter. -/
theorem Earliest.congr {outcome' : Criterion α σ → Nat → Except Fault Q}
    (h : Earliest I on outcome' counted point view)
    (heq : ∀ c K, c.Total I on → outcome c K = outcome' c K) :
    Earliest I on outcome counted point view where
  leaf c K hc hsome := by
    obtain ⟨leaf, hleaf, hsame⟩ := h.leaf c K hc hsome
    exact ⟨leaf, hleaf, by rw [heq c K hc, hsame, heq leaf K (hc.of_mem hleaf)]⟩
  least c K hc leaf hleaf later hlater := by
    rw [heq leaf K (hc.of_mem hleaf)] at hlater
    rw [heq c K hc]
    exact h.least c K hc leaf hleaf later hlater
  order c d K hc hd hsame := by
    rw [heq c K hc, heq d K hd]
    exact h.order c d K hc hd hsame
  cap c d K k hc hd hleaves := by
    rw [heq c K hc, heq d _ hd]
    exact h.cap c d K k hc hd hleaves

/-- The outcomes from one session, if they are settled. -/
theorem Earliest.outcomes {run : Criterion α σ → Nat → Run α σ Q} {session : Session α σ}
    (hsession : session.Meets I on) (h : ∃ outcome,
      (∀ c K, c.Total I on → (run c K).Settles I on (outcome c K)) ∧
        Earliest I on outcome counted point view) :
    (∀ c K, c.Total I on → (run c K).Settles I on ((run c K).answerFrom session)) ∧
      Earliest I on (fun c K => (run c K).answerFrom session) counted point view := by
  obtain ⟨outcome, hsettles, hearliest⟩ := h
  have heq c K (hc : c.Total I on) := (hsettles c K hc).answerFrom_eq hsession
  exact ⟨fun c K hc => (heq c K hc).symm ▸ hsettles c K hc, hearliest.congr heq⟩

variable {S E R : Type} {place : S → Array α} {a : Run.Answers S E R} {first : S}
  {verdict : Criterion α σ → S → Bool} {measure : Nat → S → Nat} {wrap : R → Q}
  {c d leaf : Criterion α σ} {K : Nat}

/-- The outcomes are those of a loop that asks every leaf of its criterion. -/
def Asked (I : Invariant α σ) (on : Logging.Source → Bool)
    (outcome : Criterion α σ → Nat → Except Fault Q) (a : Run.Answers S E R) (first : S)
    (verdict : Criterion α σ → S → Bool) (measure : Nat → S → Nat) (wrap : R → Q) : Prop :=
  ∀ c K, c.Total I on → outcome c K =
    wrap <$> a.outcome (fun x => c.leaves.any (verdict · x)) K (measure K first + 1) first

theorem Asked.of_leaf (h : Asked I on outcome a first verdict measure wrap) (hc : c.Total I on)
    (hleaf : leaf ∈ c.leaves) (K : Nat) :
    outcome leaf K = wrap <$> a.outcome (verdict leaf) K (measure K first + 1) first := by
  rw [h leaf K (hc.of_mem hleaf), leaves_of_mem c hleaf]
  simp only [List.any_cons, List.any_nil, Bool.or_false]

theorem Asked.exists_leaf (h : Asked I on outcome a first verdict measure wrap)
    (hc : c.Total I on) (hsome : c.leaves ≠ []) (K : Nat) :
    ∃ leaf ∈ c.leaves, outcome c K = outcome leaf K := by
  have hsome : c.leaves.map verdict ≠ [] := mt List.map_eq_nil_iff.1 hsome
  have hany (x : S) : c.leaves.any (verdict · x) = (c.leaves.map verdict).any (· x) := by
    rw [List.any_map]
    rfl
  obtain ⟨_, hchosen, hfirst⟩ := a.exists_outcome_any K hsome hany (measure K first + 1) first
  obtain ⟨leaf, hleaf, rfl⟩ := List.mem_map.1 hchosen
  exact ⟨leaf, hleaf, by rw [h c K hc, h.of_leaf hc hleaf, hfirst]⟩

/-- A leaf holds no more often than the whole criterion, so the loop stops no later for the
whole. -/
theorem Asked.least (h : Asked I on outcome a first verdict measure wrap)
    (hreports : a.Reports place (fun r => counted (wrap r)) fun r => point (wrap r))
    (hc : c.Total I on) (hleaf : leaf ∈ c.leaves) {later : Q}
    (hlater : outcome leaf K = .ok later) :
    ∃ earlier, outcome c K = .ok earlier ∧ counted earlier ≤ counted later ∧
      (counted earlier = counted later → point earlier = point later) := by
  have hweaker (x : S) (hx : verdict leaf x = true) : c.leaves.any (verdict · x) = true :=
    List.any_eq_true.2 ⟨leaf, hleaf, hx⟩
  rw [h.of_leaf hc hleaf] at hlater
  cases hrun : a.outcome (verdict leaf) K (measure K first + 1) first with
  | error fault =>
    rw [hrun] at hlater
    cases hlater
  | ok r =>
    rw [hrun] at hlater
    cases hlater
    obtain ⟨earlier, hearlier, hle, hsame⟩ := hreports.outcome_weaken hweaker hrun
    refine ⟨wrap earlier, ?_, hle, hsame⟩
    rw [h c K hc, hearlier]
    rfl

theorem Asked.order (h : Asked I on outcome a first verdict measure wrap) (hc : c.Total I on)
    (hd : d.Total I on) (hsame : ∀ leaf, leaf ∈ c.leaves ↔ leaf ∈ d.leaves) :
    outcome c K = outcome d K := by
  have hholds : (fun x => c.leaves.any (verdict · x)) = fun x => d.leaves.any (verdict · x) := by
    funext x
    rw [Bool.eq_iff_iff]
    simp only [List.any_eq_true, hsame]
  rw [h c K hc, h d K hd, hholds]

theorem Asked.cap (h : Asked I on outcome a first verdict measure wrap)
    (hdescends : ∀ K, a.Descends K (measure K))
    (hview : ∀ x, view (wrap (a.met x)) = view (wrap (a.spent x)))
    (hlimit : ∀ (k : Nat) x, verdict (.iterations k) x = decide (k ≤ a.count x)) {k : Nat}
    (hc : c.Total I on) (hd : d.Total I on)
    (hleaves : ∀ leaf, leaf ∈ c.leaves ↔ leaf = .iterations k ∨ leaf ∈ d.leaves) :
    view <$> outcome c K = view <$> outcome d (min k K) := by
  have hcapped (x : S) : c.leaves.any (verdict · x) =
      (decide (k ≤ a.count x) || d.leaves.any (verdict · x)) := by
    rw [Bool.eq_iff_iff]
    simp only [List.any_eq_true, hleaves, Bool.or_eq_true, ← hlimit, or_and_right, exists_or,
      exists_eq_left]
  -- within the two budgets the loop may take different numbers of rounds
  let rounds := measure K first + measure (min k K) first + 1
  have hrounds (K' : Nat) (hle : measure K' first < rounds) (holds : S → Bool) :
      a.outcome holds K' (measure K' first + 1) first = a.outcome holds K' rounds first :=
    (hdescends K').outcome_rounds (Nat.lt_succ_self _) hle
  rw [h c K hc, h d _ hd, hrounds K (by omega), hrounds (min k K) (by omega)]
  simpa only [Functor.map_map] using Run.Answers.outcome_capped K hview hcapped rounds first

/-- **Outcomes of loops that ask the leaves of their criterion.** -/
theorem Asked.earliest (h : Asked I on outcome a first verdict measure wrap)
    (hdescends : ∀ K, a.Descends K (measure K))
    (hreports : a.Reports place (fun r => counted (wrap r)) fun r => point (wrap r))
    (hview : ∀ x, view (wrap (a.met x)) = view (wrap (a.spent x)))
    (hlimit : ∀ (k : Nat) x, verdict (.iterations k) x = decide (k ≤ a.count x)) :
    Earliest I on outcome counted point view where
  leaf _ K hc hsome := h.exists_leaf hc hsome K
  least _ _ hc _ hleaf _ hlater := h.least hreports hc hleaf hlater
  order _ _ _ hc hd hsame := h.order hc hd hsame
  cap _ _ _ _ hc hd hleaves := h.cap hdescends hview hlimit hc hd hleaves

end

end Criterion

/-- A union has the leaves of both criteria. -/
theorem CriterionLike.orElse_leaves {α σ : Type} [Numeral α] {c : Criterion α σ}
    {second union : CriterionLike α σ} (h : (criterion c).orElse second = .ok union) :
    ∃ d, second.toCriterion = .ok d ∧ union = .criterion (.any [c, d]) ∧
      (Criterion.any [c, d]).leaves = c.leaves ++ d.leaves := by
  obtain ⟨d, hd, hunion⟩ := Fault.bind_eq_ok h
  cases hunion
  refine ⟨d, hd, rfl, ?_⟩
  rw [Criterion.leaves_any, List.flatMap_cons, List.flatMap_cons, List.flatMap_nil,
    List.append_nil]

/-! ## Minimizations that ask before every round -/

namespace Minimize

/-- A minimization that asks its criterion and its budget before every round: how it begins, what it
reports of a state, and what it does in a round that it goes through. -/
structure Inquiry (ε α σ : Type) (n : Nat) (S E : Type) where
  opening : Run α σ S
  report : S → ε → Report ε α n
  met : ε
  spent : ε
  proceed : S → Run α σ (Run.Round S E (Report ε α n))

namespace Inquiry

section

variable {ε α σ S E : Type} {n : Nat} (q : Inquiry ε α σ n S E)

/-- What is reported where the budget is spent. -/
def last (s : S) : Report ε α n := q.report s q.spent

/-- A round with the questions before it. -/
def turn (stop : Vec α n → Nat → Run α σ Bool) (limit : Nat) :
    S → Run α σ (Run.Round S E (Report ε α n)) :=
  Run.asking (fun s => stop (q.last s).gradient (q.last s).iterations)
    (fun s => (q.last s).iterations) (q.report · q.met) q.last limit q.proceed

/-- A round uses up some of the measure, and counts one or stays at its point; the last one reports
the count and the point. -/
def Counts (measure : Nat → S → Nat) (s : S) : Run.Round S E (Report ε α n) → Prop
  | .again _ t =>
    (∀ limit, (q.last s).iterations < limit → measure limit t < measure limit s) ∧
      ((q.last t).iterations = (q.last s).iterations + 1 ∨
        (q.last t).iterations = (q.last s).iterations ∧ (q.last t).point = (q.last s).point)
  | .done _ report =>
    report.iterations = (q.last s).iterations ∧ report.point = (q.last s).point

/-- The loop of a minimization whose rounds answer in this way. -/
def answers (go : S → Except Fault (Run.Round S E (Report ε α n))) :
    Run.Answers S E (Report ε α n) where
  count s := (q.last s).iterations
  met := (q.report · q.met)
  spent := q.last
  go := go

end

variable {ε α σ S E V : Type} [Numeral α] {n : Nat} {I : Invariant α σ}
  {on : Logging.Source → Bool} {session : Session α σ} {q : Inquiry ε α σ n S E}
  {solve : Criterion α σ → Nat → Run α σ (Report ε α n)} {measure : Nat → S → Nat}
  {view : (n : Nat) × Report ε α n → V}

/-- Minimizations that differ in their criterion and their budget, and always do the same but for
what these answer. -/
structure Conducts (I : Invariant α σ) (on : Logging.Source → Bool) (q : Inquiry ε α σ n S E)
    (solve : Criterion α σ → Nat → Run α σ (Report ε α n)) (measure : Nat → S → Nat) : Prop where
  solve : ∀ c K, ∃ loop, solve c K = q.opening >>= loop ∧
    Run.Loops (q.turn (fun g k => c.holds g (.whole k)) K) loop
  report : ∀ s exit, q.report s exit = { q.last s with exit }
  opening : (Comparison.apart I on).Compares Eq q.opening q.opening
  proceed : ∀ s, (Comparison.apart I on).Compares Eq (q.proceed s) (q.proceed s)
  counts : ∀ s, (q.proceed s).Keeps Invariant.none (q.Counts measure s)

variable {go : S → Except Fault (Run.Round S E (Report ε α n))}

omit [Numeral α] in
theorem answers_descends (hgo : ∀ s r, go s = .ok r → q.Counts measure s r) (K : Nat) :
    (q.answers go).Descends K (measure K) :=
  fun s _ _ left hagain => (hgo s _ hagain).1 K left

theorem Conducts.reports (h : q.Conducts I on solve measure)
    (hgo : ∀ s r, go s = .ok r → q.Counts measure s r) :
    (q.answers go).Reports (fun s => (q.last s).point.toArray) Report.iterations
      fun report => report.point.toArray where
  met s := by
    show (q.report s q.met).iterations = _ ∧ (q.report s q.met).point.toArray = _
    rw [h.report]
    exact ⟨rfl, rfl⟩
  spent _ := ⟨rfl, rfl⟩
  done s _ report hdone := by
    obtain ⟨hcount, hpoint⟩ := hgo s _ hdone
    exact ⟨hcount, congrArg Vector.toArray hpoint⟩
  again s _ t hagain :=
    (hgo s _ hagain).2.imp_right fun ⟨hcount, hpoint⟩ =>
      ⟨hcount, congrArg Vector.toArray hpoint⟩

/-- **Minimizations that ask before every round** stop where the first leaf of their criterion
holds. -/
theorem Conducts.earliest (h : q.Conducts I on solve measure) (hsession : session.Meets I on)
    (hview : ∀ (report : Report ε α n) exit, view ⟨n, { report with exit }⟩ = view ⟨n, report⟩) :
    ∃ outcome, (∀ c K, c.Total I on →
        (Sigma.mk n <$> solve c K : Run α σ ((n : Nat) × Report ε α n)).Settles I on
          (outcome c K)) ∧
      Criterion.Earliest I on outcome (·.2.iterations) (·.2.point.toArray) view := by
  obtain ⟨e, hopening⟩ := Run.exists_settles h.opening
  cases e with
  | error fault =>
    refine ⟨fun _ _ => .error fault, fun c K _ => ?_, .of_error fun _ _ _ => rfl⟩
    obtain ⟨loop, hloop, -⟩ := h.solve c K
    rw [hloop]
    exact Run.Settles.map (.bind_error hopening)
  | ok first =>
    obtain ⟨go, hgo, hcounts⟩ := Run.exists_answers h.proceed h.counts hsession
    obtain ⟨verdict, hverdict⟩ := Criterion.exists_verdict (α := α) (σ := σ) I on n
    have hasked : Criterion.Asked I on _ (q.answers go) first
        (fun leaf s => verdict leaf (q.last s).gradient (q.last s).iterations) measure
        (Sigma.mk n) := fun c K _ => rfl
    have hmet (s : S) : view ⟨n, q.report s q.met⟩ = view ⟨n, q.last s⟩ := by
      rw [h.report, hview]
    refine ⟨_, fun c K hc => ?_, hasked.earliest (answers_descends hcounts) (h.reports hcounts)
      hmet fun k s => ?_⟩
    · obtain ⟨loop, hsolve, hloop⟩ := h.solve c K
      rw [hsolve]
      refine Run.Settles.map (.bind_ok hopening ?_)
      exact (q.answers go).settles hloop (fun s => hverdict c hc _ _) hgo
        (answers_descends hcounts K) _ first (Nat.lt_succ_self _)
    · exact Criterion.verdict_iterations hverdict hsession k _ _

end Inquiry

/-- **A minimization that was read stops where the first leaf of its criterion holds.** The
criterion and the budget are all that the task owes to the criterion and the budget of callers. -/
theorem account_earliest {P : Nat → Type} {ε ρ α σ V : Type} [Numeral α] {I : Invariant α σ}
    {on : Logging.Source → Bool} {session : Session α σ}
    {read : Criterion α σ → Nat → Except Fault (Task P ρ α)}
    {solve : (task : Task P ρ α) → Run α σ (Report ε α task.unknowns)}
    {pose : (task : Task P ρ α) → Criterion α σ → P task.unknowns}
    {view : (n : Nat) × Report ε α n → V}
    (hread : ∀ c K, read c K =
      (fun task => { task with problem := pose task c, budget := K }) <$> read (.any []) 0)
    (hconducts : ∀ task, read (.any []) 0 = .ok task →
      ∃ (S E : Type) (q : Inquiry ε α σ task.unknowns S E) (measure : Nat → S → Nat),
        q.Conducts I on (fun c K => solve { task with problem := pose task c, budget := K })
          measure)
    (hsession : session.Meets I on)
    (hview : ∀ n (report : Report ε α n) exit,
      view ⟨n, { report with exit }⟩ = view ⟨n, report⟩) :
    (∀ c K, c.Total I on → (account (read c K) solve).Settles I on
      ((account (read c K) solve).answerFrom session)) ∧
    Criterion.Earliest I on (fun c K => (account (read c K) solve).answerFrom session)
      (·.2.iterations) (·.2.point.toArray) view := by
  refine Criterion.Earliest.outcomes hsession ?_
  cases hfirst : read (.any []) 0 with
  | error fault =>
    refine ⟨fun _ _ => .error fault, fun c K _ => ?_, .of_error fun _ _ _ => rfl⟩
    rw [account, hread, hfirst]
    exact .throw
  | ok task =>
    obtain ⟨_, _, q, _, hq⟩ := hconducts task hfirst
    have haccount (c : Criterion α σ) (K : Nat) : account (read c K) solve =
        Sigma.mk task.unknowns <$> solve { task with problem := pose task c, budget := K } := by
      have hstopping : read c K = .ok { task with problem := pose task c, budget := K } := by
        rw [hread, hfirst]
        rfl
      exact account_of_read hstopping
    simp only [haccount]
    exact hq.earliest hsession (hview task.unknowns)

end Minimize

/-! ## Conjugate gradients -/

namespace Conjugate

section

variable {α σ : Type} {n : Nat} [Numeral α] {I : Invariant α σ} {on : Logging.Source → Bool}
  {problem : Problem α σ n} {rule : Rule α} {s : State α n}
  {r : Run.Round (State α n) (Search α n) (Report α n)}

/-- An iteration after its questions. -/
def proceed (problem : Problem α σ n) (rule : Rule α) (s : State α n) :
    Run α σ (Run.Round (State α n) (Search α n) (Report α n)) :=
  match aim s with
  | none => return .done none (s.report .noDescent)
  | some (t, slope) => do
    let found ← seek problem rule t slope
    let leg ← settle problem rule t slope found
    return Search.round ⟨s, t, slope, found, leg⟩

/-- A minimization as one that asks before every iteration. -/
def inquiry (problem : Problem α σ n) (rule : Rule α) (start : Vec α n) :
    Minimize.Inquiry Exit α σ n (State α n) (Search α n) where
  opening := opening problem start
  report := State.report
  met := .criterion
  spent := .budget
  proceed := proceed problem rule

theorem proceed_compares (h : problem.Determined I on) (rule : Rule α) (s : State α n) :
    (Comparison.apart I on).Compares Eq (proceed problem rule s) (proceed problem rule s) := by
  unfold proceed
  cases aim s with
  | none => exact .pure rfl
  | some p =>
    refine .bind (seek_compares h rule p.1 p.2) ?_
    rintro found _ rfl
    refine .bind (R := Eq) ?_ ?_
    · refine .ite Iff.rfl (fun _ => ?_) fun _ => ?_
      · exact .ite Iff.rfl (fun _ => .pure rfl) fun _ => .pure rfl
      refine .bind (h.gradient _ trivial) ?_
      rintro gradient _ rfl
      refine .bind (h.precondition _ gradient trivial) ?_
      rintro smoothed _ rfl
      exact .pure rfl
    · rintro leg _ rfl
      exact .pure rfl

theorem proceed_keeps (problem : Problem α σ n) (rule : Rule α) (s : State α n) :
    (proceed problem rule s).Keeps Invariant.none fun r =>
      ∀ limit, s.iterations < limit → Turns problem rule limit s r := by
  unfold proceed
  cases haim : aim s with
  | none => exact .pure fun limit left => .noDescent left haim
  | some p =>
    refine .bind (seek_keeps problem rule p.1 p.2) fun found hwork => ?_
    refine .bind (settle_keeps problem rule p.1 p.2 found) fun leg hleg => ?_
    exact .pure fun limit left => .search left haim hwork hleg

/-- An iteration counts one or stays at its point, and the last one reports it. -/
theorem inquiry_counts {start : Vec α n}
    (h : ∀ limit, s.iterations < limit → Turns problem rule limit s r) :
    (inquiry problem rule start).Counts State.searchesLeft s r := by
  have hless {search : Search α n} {t : State α n} (hagain : r = .again search t) (limit : Nat)
      (left : s.iterations < limit) : t.searchesLeft limit < s.searchesLeft limit := by
    have hle := (h limit left).left_le
    rw [hagain] at hle
    simp only [Run.Round.events, Run.Round.left, List.length_singleton] at hle
    omega
  cases h _ (Nat.lt_succ_self _) with
  | criterion | budget | noDescent => exact ⟨rfl, rfl⟩
  | @search t slope found leg left haim work settles =>
    have ht : t.iterations = s.iterations ∧ t.point = s.point := by
      obtain rfl | rfl := aimed_eq haim <;> exact ⟨rfl, rfl⟩
    cases settles with
    | accepted => exact ⟨hless rfl, .inl (congrArg (· + 1) ht.1)⟩
    | retry => exact ⟨hless rfl, .inr ht⟩
    | ended => exact ht

theorem opening_compares (h : problem.Determined I on) (start : Vec α n) :
    (Comparison.apart I on).Compares Eq (opening problem start) (opening problem start) := by
  refine .bind (h.gradient start trivial) ?_
  rintro gradient _ rfl
  refine .bind (h.precondition start gradient trivial) ?_
  rintro smoothed _ rfl
  exact .pure rfl

/-- The problem with a criterion. -/
def Problem.stopping (problem : Problem α σ n) (c : Criterion α σ) : Problem α σ n :=
  { problem with stop := fun g k => c.holds g (.whole k) }

/-- **A minimization takes the same course whatever its criterion.** -/
theorem inquiry_conducts (h : problem.Determined I on) (rule : Rule α) (start : Vec α n) :
    (inquiry problem rule start).Conducts I on
      (fun c K => solve (problem.stopping c) rule K start) State.searchesLeft where
  solve c K := ⟨_, solve_eq_loop (problem.stopping c) rule K start,
    iterate_loops (problem.stopping c) rule K⟩
  report _ _ := rfl
  opening := opening_compares h start
  proceed := proceed_compares h rule
  counts s := (proceed_keeps problem rule s).mono fun _ => inquiry_counts

end

/-! ## Minimizations of what callers give -/

section

variable {α σ : Type} [Numeral α] {I : Invariant α σ} {on : Logging.Source → Bool}
  {session : Session α σ} {gradient : VectorField α σ} {start : Datum α} {options : Options α σ}
  {outside : Region α σ} {preconditioner : Option (Tensor α σ)}

/-- The options with a criterion and a budget. -/
def Options.stopping (options : Options α σ) (c : Criterion α σ) (K : Nat) : Options α σ :=
  { options with stop := .criterion c, maxIterations := .number (.whole K) }

/-- The criterion and the budget are all that is owed to them. -/
theorem Task.read_stopping (c : Criterion α σ) (K : Nat) :
    Task.read gradient start (options.stopping c K) outside preconditioner =
      (fun task => { task with problem := task.problem.stopping c, budget := K }) <$>
        Task.read gradient start (options.stopping (.any []) 0) outside preconditioner := by
  have hsettings : (options.stopping c K).settings =
      (fun s => { s with maxIterations := .whole K, stop := c }) <$>
        (options.stopping (.any []) 0).settings := by
    simp only [Options.settings, Options.stopping, LinearSystem.budget_insist,
      CriterionLike.toCriterion, map_bind, map_pure]
    rfl
  rw [Task.read, Task.read, hsettings]
  exact Minimize.Task.setUp_map fun _ _ _ => rfl

/-- A report without the reason for the end. -/
def withoutExit (r : (n : Nat) × Report α n) : (n : Nat) × Report α n :=
  ⟨r.1, { r.2 with exit := .budget }⟩

/-- **A minimization stops where the first leaf of its criterion holds.** -/
theorem account_earliest (start : Datum α) (options : Options α σ)
    (hgradient : Run.Determined I on gradient) (houtside : Run.Determined I on outside)
    (hpreconditioner : ∀ tensor ∈ preconditioner, tensor.Determined I on)
    (hsession : session.Meets I on) :
    (∀ c K, c.Total I on →
      (account gradient start (options.stopping c K) outside preconditioner).Settles I on
        ((account gradient start (options.stopping c K) outside preconditioner).answerFrom
          session)) ∧
    Criterion.Earliest I on
      (fun c K => (account gradient start (options.stopping c K) outside preconditioner).answerFrom
        session)
      (·.2.iterations) (·.2.point.toArray) withoutExit := by
  refine Minimize.account_earliest (fun _ _ => Task.read_stopping _ _) (fun task hread => ?_)
    hsession fun _ _ _ => rfl
  have hdetermined : task.problem.Determined I on := by
    obtain ⟨settings, hsettings, -, hproblem, -⟩ := Minimize.Task.setUp_eq_ok hread
    rw [hproblem]
    exact Problem.posed_determined hgradient houtside hpreconditioner Criterion.determined_nil
      (Options.settings_eq_ok hsettings).stop task.unknowns
  exact ⟨_, _, _, _, inquiry_conducts hdetermined task.rule task.start⟩

end

end Conjugate

/-! ## Truncated Newton steps -/

namespace Newton

section

variable {α σ : Type} {n : Nat} [Numeral α] {I : Invariant α σ} {on : Logging.Source → Bool}
  {problem : Problem α σ n} {rule : Rule α}

/-- An outer iteration after its questions. -/
def proceed (problem : Problem α σ n) (rule : Rule α) (s : State α n) :
    Run α σ (Run.Round (State α n) (Outer α n) (Report α n)) := do
  return (← survey problem rule s).round

/-- A minimization as one that asks before every outer iteration. -/
def inquiry (problem : Problem α σ n) (rule : Rule α) (start : Vec α n) :
    Minimize.Inquiry Exit α σ n (State α n) (Outer α n) where
  opening := opening problem start
  report := State.report
  met := .criterion
  spent := .budget
  proceed := proceed problem rule

theorem proceed_compares (h : problem.Determined I on) (rule : Rule α) (s : State α n) :
    (Comparison.apart I on).Compares Eq (proceed problem rule s) (proceed problem rule s) := by
  refine .bind (R := Eq) ?_ ?_
  · refine .bind (h.precondition s.point trivial) fun smoother smoother' hsmoother => ?_
    refine .bind (.bind (h.hessian s.point trivial) fun _ _ hhessian =>
      LinearSystem.run_compares ⟨hhessian, hsmoother⟩ _ _ _ _) ?_
    rintro report _ rfl
    refine .bind (R := Eq) (.ite Iff.rfl (fun _ => .pure rfl) fun _ =>
      .bind (steepest_compares hsmoother _) ?_) ?_
    · rintro step _ rfl
      exact .pure rfl
    rintro direction _ rfl
    refine .bind (seek_compares h rule hsmoother s direction) ?_
    rintro tries _ ⟨rfl, -⟩
    refine .bind (conclude_compares h trivial fun _ => trivial) ?_
    rintro leg _ ⟨rfl, -⟩
    exact .pure rfl
  · rintro outer _ rfl
    exact .pure rfl

/-- An outer iteration counts one, and the last one reports its point. -/
theorem inquiry_counts (problem : Problem α σ n) (rule : Rule α) (start : Vec α n)
    (s : State α n) : (proceed problem rule s).Keeps Invariant.none
      ((inquiry problem rule start).Counts (fun K s => K - s.iterations) s) := by
  refine .bind
    (R := fun outer => (inquiry problem rule start).Counts (fun K s => K - s.iterations) s
      outer.round) ?_ fun outer houter => .pure houter
  refine .bind (Run.keeps_none _) fun smoother _ => .bind (Run.keeps_none _) fun report _ => ?_
  refine .bind (Run.keeps_none _) fun direction _ => .bind (Run.keeps_none _) fun tries _ => ?_
  refine .bind (R := fun leg => (inquiry problem rule start).Counts (fun K s => K - s.iterations) s
    (Outer.round ⟨report, tries, leg⟩)) ?_ fun leg hleg => .pure hleg
  refine .ite (fun _ => ?_) fun _ => .pure ⟨rfl, rfl⟩
  refine .bind (Run.keeps_none _) fun gradient _ => .pure ⟨fun limit left => ?_, .inl rfl⟩
  exact Nat.sub_lt_sub_left left (Nat.lt_succ_self s.iterations)

/-- The problem with a criterion. -/
def Problem.stopping (problem : Problem α σ n) (c : Criterion α σ) : Problem α σ n :=
  { problem with stop := fun g k => c.holds g (.whole k) }

/-- **A minimization takes the same course whatever its criterion.** -/
theorem inquiry_conducts (h : problem.Determined I on) (rule : Rule α) (start : Vec α n) :
    (inquiry problem rule start).Conducts I on
      (fun c K => solve (problem.stopping c) rule K start) fun K s => K - s.iterations where
  solve c K := ⟨_, solve_eq_loop (problem.stopping c) rule K start,
    iterate_loops (problem.stopping c) rule K⟩
  report _ _ := rfl
  opening := by
    refine .bind (h.gradient start trivial) ?_
    rintro gradient _ rfl
    exact .pure rfl
  proceed := proceed_compares h rule
  counts := inquiry_counts problem rule start

end

/-! ## Minimizations of what callers give -/

section

variable {α σ : Type} [Numeral α] {I : Invariant α σ} {on : Logging.Source → Bool}
  {session : Session α σ} {gradient : VectorField α σ} {hessian : Tensor α σ} {start : Datum α}
  {outside : Region α σ} {options : Options α σ} {preconditioner : Option (Tensor α σ)}

/-- The options with a criterion and a budget. -/
def Options.stopping (options : Options α σ) (c : Criterion α σ) (K : Nat) : Options α σ :=
  { options with stop := .criterion c, maxIterations := .number (.whole K) }

/-- The criterion and the budget are all that is owed to them. -/
theorem Task.read_stopping (c : Criterion α σ) (K : Nat) :
    Task.read gradient hessian start outside (options.stopping c K) preconditioner =
      (fun task => { task with problem := task.problem.stopping c, budget := K }) <$>
        Task.read gradient hessian start outside (options.stopping (.any []) 0)
          preconditioner := by
  have hsettings : (options.stopping c K).settings =
      (fun s => { s with maxIterations := .whole K, stop := c }) <$>
        (options.stopping (.any []) 0).settings := by
    simp only [Options.settings, Options.stopping, LinearSystem.budget_insist,
      CriterionLike.toCriterion, map_bind, map_pure]
    rfl
  rw [Task.read, Task.read, hsettings]
  exact Minimize.Task.setUp_map fun _ _ _ => rfl

/-- A report without the reason for the end. -/
def withoutExit (r : (n : Nat) × Report α n) : (n : Nat) × Report α n :=
  ⟨r.1, { r.2 with exit := .budget }⟩

/-- **A minimization stops where the first leaf of its criterion holds.** -/
theorem account_earliest (start : Datum α) (options : Options α σ)
    (hgradient : Run.Determined I on gradient) (hhessian : hessian.Determined I on)
    (houtside : Run.Determined I on outside)
    (hpreconditioner : ∀ tensor ∈ preconditioner, tensor.Determined I on)
    (hsession : session.Meets I on) :
    (∀ c K, c.Total I on →
      (account gradient hessian start outside (options.stopping c K) preconditioner).Settles I on
        ((account gradient hessian start outside (options.stopping c K)
          preconditioner).answerFrom session)) ∧
    Criterion.Earliest I on
      (fun c K => (account gradient hessian start outside (options.stopping c K)
        preconditioner).answerFrom session)
      (·.2.iterations) (·.2.point.toArray) withoutExit := by
  refine Minimize.account_earliest (fun _ _ => Task.read_stopping _ _) (fun task hread => ?_)
    hsession fun _ _ _ => rfl
  have hdetermined : task.problem.Determined I on := by
    obtain ⟨settings, hsettings, -, hproblem, -⟩ := Minimize.Task.setUp_eq_ok hread
    rw [hproblem]
    exact Problem.posed_determined hgradient hhessian houtside hpreconditioner
      Criterion.determined_nil (Options.settings_eq_ok hsettings).stop task.unknowns
  exact ⟨_, _, _, _, inquiry_conducts hdetermined task.rule task.start⟩

end

end Newton

/-! ## Both minimizers -/

/-- **Combined criteria stop a minimization at the earliest of them.** For functions that always
give the same answers, and criteria that always give one: with a criterion that is put together from
others, a minimization has the outcome that it has with one of them alone, with none of them alone
it completes fewer iterations, and those with which it completes as few return the same point. How
they are put together does not matter, and a limit to the iterations among them acts as a limit to
the budget. -/
theorem combined_criteria_stop_earliest {α σ : Type} [Numeral α] {I : Invariant α σ}
    {on : Logging.Source → Bool} {gradient : VectorField α σ} {hessian : Tensor α σ}
    {outside : Region α σ} {preconditioner : Option (Tensor α σ)} (start : Datum α)
    (hgradient : Run.Determined I on gradient) (hhessian : hessian.Determined I on)
    (houtside : Run.Determined I on outside)
    (hpreconditioner : ∀ tensor ∈ preconditioner, tensor.Determined I on)
    {session : Session α σ} (hsession : session.Meets I on) :
    -- how criteria are put together
    (∀ members : List (Criterion α σ),
      (Criterion.any members).leaves = members.flatMap Criterion.leaves) ∧
    (∀ (c : Criterion α σ) (second union : CriterionLike α σ),
      (CriterionLike.criterion c).orElse second = .ok union →
      ∃ d, second.toCriterion = .ok d ∧ union = .criterion (.any [c, d]) ∧
        (Criterion.any [c, d]).leaves = c.leaves ++ d.leaves) ∧
    -- conjugate gradients
    (∀ options : Conjugate.Options α σ,
      let account (c : Criterion α σ) (K : Nat) :=
        Conjugate.account gradient start (options.stopping c K) outside preconditioner
      Criterion.Earliest I on (fun c K => (account c K).answerFrom session)
        (·.2.iterations) (·.2.point.toArray) Conjugate.withoutExit ∧
      ∀ value, (∀ f ∈ value, Run.Determined I on f) → ∃ finish : Array α → Except Fault (Array α),
        (∀ x y, finish x = .ok y → y = x) ∧
        ∀ (c : Criterion α σ) (K : Nat), c.Total I on →
          (minimizeConjugate value gradient start (options.stopping c K) outside
            preconditioner).Settles I on (do
              let r ← (account c K).answerFrom session
              finish r.2.point.toArray)) ∧
    -- truncated Newton steps
    (∀ options : Newton.Options α σ,
      let account (c : Criterion α σ) (K : Nat) :=
        Newton.account gradient hessian start outside (options.stopping c K) preconditioner
      Criterion.Earliest I on (fun c K => (account c K).answerFrom session)
        (·.2.iterations) (·.2.point.toArray) Newton.withoutExit ∧
      ∀ (c : Criterion α σ) (K : Nat), c.Total I on →
        (minimizeNewton gradient hessian start outside (options.stopping c K)
          preconditioner).Settles I on (do
            let r ← (account c K).answerFrom session
            return r.2.point.toArray)) := by
  refine ⟨Criterion.leaves_any, fun _ _ _ => CriterionLike.orElse_leaves, fun options => ?_,
    fun options => ?_⟩
  · obtain ⟨hsettles, hearliest⟩ :=
      Conjugate.account_earliest start options hgradient houtside hpreconditioner hsession
    refine ⟨hearliest, fun value hvalue => ?_⟩
    obtain ⟨finish, hfinish, hself⟩ := Conjugate.exists_publish_settles hvalue
    refine ⟨finish, hself, fun c K hc => ?_⟩
    rw [Conjugate.minimizeConjugate_eq_account]
    exact .bind (hsettles c K hc) fun r => hfinish r.2
  · obtain ⟨hsettles, hearliest⟩ :=
      Newton.account_earliest start options hgradient hhessian houtside hpreconditioner hsession
    refine ⟨hearliest, fun c K hc => ?_⟩
    rw [Newton.minimizeNewton_eq_account]
    exact .bind (hsettles c K hc) Newton.announce_settles

section

/-- Both minimizers of half the square of a number, asked to stop where the slope is small or after
one iteration. -/
theorem combined_criteria_stop_earliest_slope :
    let small : Criterion Float Unit := .gradientNorm 1e-8
    let either : Criterion Float Unit := .any [small, .iterations 1]
    let byConjugate (c : Criterion Float Unit) (K : Nat) :=
      (Conjugate.account slope (.vector #[1]) (({} : Conjugate.Options Float Unit).stopping c K)
        Region.everywhere none).answerFrom (.initial ())
    let byNewton (c : Criterion Float Unit) (K : Nat) :=
      (Newton.account slope (.constant (.operator .identity)) (.vector #[1]) Region.everywhere
        (({} : Newton.Options Float Unit).stopping c K) none).answerFrom (.initial ())
    ((∃ leaf ∈ either.leaves, byConjugate either 10 = byConjugate leaf 10) ∧
      Conjugate.withoutExit <$> byConjugate either 10 =
        Conjugate.withoutExit <$> byConjugate small 1) ∧
    ((∃ leaf ∈ either.leaves, byNewton either 10 = byNewton leaf 10) ∧
      Newton.withoutExit <$> byNewton either 10 =
        Newton.withoutExit <$> byNewton small 1) := by
  intro small either byConjugate byNewton
  let session : Session Float Unit := .initial ()
  let hessian : Tensor Float Unit := .constant (.operator .identity)
  have hmeets : session.Meets Invariant.none session.listens := ⟨trivial, rfl⟩
  have hslope : Run.Determined Invariant.none session.listens slope :=
    .of_pure Datum.vector
  have hhessian : hessian.Determined Invariant.none session.listens := Tensor.determined_identity
  have houtside : Run.Determined Invariant.none session.listens
      (Region.everywhere : Region Float Unit) := .of_pure _
  have hpreconditioner : ∀ tensor ∈ (none : Option (Tensor Float Unit)),
      tensor.Determined Invariant.none session.listens := nofun
  have heither : either.leaves = [small, .iterations 1] := rfl
  have hsmall : small.Total Invariant.none session.listens := by
    intro leaf hleaf n g k
    obtain rfl := List.mem_singleton.1 hleaf
    exact ⟨_, .pure⟩
  have htotal : either.Total Invariant.none session.listens := by
    intro leaf hleaf n g k
    rw [heither, List.mem_pair] at hleaf
    obtain rfl | rfl := hleaf <;> exact ⟨_, .pure⟩
  have hleaves (leaf : Criterion Float Unit) :
      leaf ∈ either.leaves ↔ leaf = .iterations (1 : Nat) ∨ leaf ∈ small.leaves := by
    rw [heither, List.mem_pair, or_comm]
    exact or_congr Iff.rfl List.mem_singleton.symm
  obtain ⟨-, -, hconjugate, hnewton⟩ := combined_criteria_stop_earliest (.vector #[1]) hslope
    hhessian houtside hpreconditioner hmeets
  have hearlyConjugate := (hconjugate {}).1
  have hearlyNewton := (hnewton {}).1
  exact ⟨⟨hearlyConjugate.leaf either 10 htotal (heither ▸ List.cons_ne_nil _ _),
      hearlyConjugate.cap either small 10 1 htotal hsmall hleaves⟩,
    hearlyNewton.leaf either 10 htotal (heither ▸ List.cons_ne_nil _ _),
    hearlyNewton.cap either small 10 1 htotal hsmall hleaves⟩

end

end Descent
