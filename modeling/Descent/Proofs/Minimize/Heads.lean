import Descent.Proofs.Exact.Number
import Descent.Proofs.Minimize.Reading
import Descent.Proofs.Minimize.Rounds
import Descent.Scalar.Double

/-!
# The heads of the iterations

At the head of every iteration of a minimization by conjugate gradients the parts of the state
belong together, whatever the arithmetic and whatever way the iteration before has taken.

* `Conjugate.State.Sound`: gradient, preconditioned gradient, product, direction and the count since
  the last restart fit the point and each other. `Conjugate.Turns.sound`: an iteration leads from a
  sound head to a sound head.
* `Conjugate.Search.Sound`: a search goes along a direction that descends and, if its step is
  accepted, leads to the steepest direction or to a conjugate one.
* `Conjugate.Streaks`: among so many accepted steps in a row as there are between two restarts, one
  was taken along the steepest direction.
* `minimizeConjugate_heads`: all of this, for data as callers give them.
-/

namespace Descent

namespace Conjugate

section

variable {α σ : Type} {n : Nat} [Numeral α]

/-- The number of accepted steps between two restarts, at least one. -/
def Rule.interval (rule : Rule α) : Nat :=
  (max rule.restartInterval 1).toNat

/-- The parts of a state at the head of an iteration belong together. -/
structure State.Sound (problem : Problem α σ n) (rule : Rule α) (s : State α n) : Prop where
  gradient : (problem.gradient s.point).Gives s.gradient
  smoothed : (problem.precondition s.point s.gradient).Gives s.smoothed
  product : s.product = Vec.dot s.gradient s.smoothed
  sinceRestart : s.sinceRestart < rule.interval
  direction : s.sinceRestart = 0 → s.direction = -s.smoothed

/-- A search from a head starts along the direction of the head if it descends, else along the
steepest one, which descends then. -/
def State.Starts (s t : State α n) (slope : α) : Prop :=
  slope < 0 ∧ (t = s ∧ slope = Vec.dot s.gradient s.direction ∨
    t = s.steepest ∧ t.direction = -s.smoothed ∧ slope = -s.product)

/-- A search that starts along a direction that descends, and whose accepted step leads to the
steepest direction or to a conjugate one. -/
structure Search.Sound (search : Search α n) : Prop where
  starts : search.head.Starts search.aimed search.slope
  next : search.moved = true →
    search.next.direction = -search.next.smoothed ∨
      ∃ beta : α, (beta == 0) = false ∧
        search.next.direction = Vec.along (-search.next.smoothed) beta search.aimed.direction

/-- A search along the steepest direction of its head. -/
def Search.Steep (search : Search α n) : Prop :=
  search.aimed.direction = -search.aimed.smoothed

/-- The searches with an accepted step. -/
def stepsOf (searches : List (Search α n)) : List (Search α n) :=
  searches.filter (·.moved)

variable {problem : Problem α σ n} {rule : Rule α} {s t : State α n} {slope : α} {limit : Nat}
  {found : Ray.Found α} {leg : Leg α n} {search : Search α n} {steps : List (Search α n)}

/-! ## Heads -/

omit [Numeral α] in
theorem Rule.interval_pos (rule : Rule α) : 0 < rule.interval := by
  unfold interval
  omega

theorem aim_starts (h : aim s = some (t, slope)) : s.Starts t slope := by
  obtain ⟨hneg, ⟨ht, hslope⟩ | ⟨ht, hslope⟩⟩ := aim_cases h
  · exact ⟨hneg, .inl ⟨ht, hslope⟩⟩
  · exact ⟨hneg, .inr ⟨ht, congrArg State.direction ht, hslope⟩⟩

/-- Aiming keeps a state sound. -/
theorem State.Sound.aimed (hs : s.Sound problem rule) (h : aim s = some (t, slope)) :
    t.Sound problem rule := by
  obtain rfl | rfl := aimed_eq h
  · exact hs
  · exact ⟨hs.gradient, hs.smoothed, hs.product, rule.interval_pos, fun _ => rfl⟩

/-- What follows from a search is sound again. -/
theorem State.Sound.settles (hs : s.Sound problem rule)
    (h : Settles problem rule s slope found leg) : leg.state.Sound problem rule := by
  cases h with
  | accepted hmoves hgradient hsmoothed =>
    refine ⟨hgradient, hsmoothed, rfl, ?_, fun hzero => ?_⟩
    · simp only [Leg.state, advance]
      split
      · exact rule.interval_pos
      · rename_i hgoes
        simp only [Bool.or_eq_true, decide_eq_true_eq, not_or] at hgoes
        have hcount : ((s.sinceRestart + 1 : Nat) : Int) < rule.restartInterval :=
          Int.not_le.1 hgoes.2
        simp only [Rule.interval, State.counted]
        omega
    · simp only [Leg.state, advance] at hzero ⊢
      split at hzero
      · rw [if_pos ‹_›]
      · exact absurd hzero (Nat.succ_ne_zero _)
  | retry => exact ⟨hs.gradient, hs.smoothed, hs.product, rule.interval_pos, fun _ => rfl⟩
  | ended => exact ⟨hs.gradient, hs.smoothed, hs.product, hs.sinceRestart, hs.direction⟩

/-- **An iteration leads from a sound head to a sound head.** -/
theorem Turns.sound (hs : s.Sound problem rule) (h : Turns problem rule limit s (.again search t)) :
    t.Sound problem rule := by
  obtain ⟨-, -, haim, -, hsettles, -, rfl⟩ := h.again
  exact (hs.aimed haim).settles hsettles

omit [Numeral α] in
/-- A search that moved led to an accepted step. -/
theorem Search.leg_of_moved (h : search.moved = true) : search.leg = .accepted search.next := by
  obtain ⟨head, aimed, slope, found, leg⟩ := search
  cases leg with
  | accepted t => rfl
  | retry t | ended exit t => cases h

omit [Numeral α] in
theorem Search.leg_of_not_moved (h : search.moved = false) (t : State α n) :
    search.leg ≠ .accepted t := by
  intro hleg
  rw [Search.moved, hleg] at h
  cases h

/-- The direction after an accepted step is the steepest one or a conjugate one. -/
theorem Settles.direction (h : Settles problem rule s slope found (.accepted t)) :
    t.direction = -t.smoothed ∨
      ∃ beta : α, (beta == 0) = false ∧
        t.direction = Vec.along (-t.smoothed) beta s.direction := by
  cases h with
  | accepted =>
    simp only [advance]
    split
    · exact .inl rfl
    · rename_i hgoes
      simp only [Bool.or_eq_true, not_or, Bool.not_eq_true] at hgoes
      exact .inr ⟨_, hgoes.1, rfl⟩

/-- An accepted step is counted, or it ends in a restart. -/
theorem Settles.count_accepted (h : Settles problem rule s slope found (.accepted t)) :
    t.sinceRestart = 0 ∨ t.sinceRestart = s.sinceRestart + 1 := by
  cases h with
  | accepted =>
    simp only [advance]
    split
    · exact .inl rfl
    · exact .inr rfl

/-- Without an accepted step the count starts again. -/
theorem Settles.count_eq_zero (h : Settles problem rule s slope found leg)
    (hmoved : ∀ t, leg ≠ .accepted t) : leg.state.sinceRestart = 0 := by
  cases h with
  | accepted => exact absurd rfl (hmoved _)
  | retry => rfl
  | ended _ hsince => exact hsince

theorem Turns.search_sound (h : Turns problem rule limit s (.again search t)) : search.Sound := by
  obtain ⟨hhead, -, haim, -, hsettles, -, -⟩ := h.again
  refine ⟨hhead ▸ aim_starts haim, fun hmoved => ?_⟩
  rw [Search.leg_of_moved hmoved] at hsettles
  exact hsettles.direction

/-! ## Streaks -/

/-- Accepted steps, `since` of them after the last restart: no streak without the steepest direction
is as long as the interval between restarts, and since a restart there has been a step along the
steepest direction. -/
structure Streaks (interval : Nat) (steps : List (Search α n)) (since : Nat) : Prop where
  anywhere : ∀ streak, streak <:+: steps → (∀ step ∈ streak, ¬step.Steep) →
    streak.length < interval
  atEnd : 0 < since → ∀ streak, streak <:+ steps → (∀ step ∈ streak, ¬step.Steep) →
    streak.length < since

variable {interval since : Nat}

theorem Streaks.nil (h : 0 < interval) : Streaks interval ([] : List (Search α n)) since := by
  refine ⟨fun streak hstreak _ => ?_, fun hsince streak hstreak _ => ?_⟩
  · rwa [List.infix_nil.1 hstreak]
  · rwa [List.suffix_nil.1 hstreak]

theorem Streaks.restart (h : Streaks interval steps since) : Streaks interval steps 0 :=
  ⟨h.anywhere, nofun⟩

/-- A streak that is a suffix decides about those that are anywhere. -/
theorem Streaks.concat (h : Streaks interval steps since) {count : Nat} (hcount : count ≤ interval)
    (hend : ∀ streak, streak <:+ steps ++ [search] → (∀ step ∈ streak, ¬step.Steep) →
      streak.length < count) : Streaks interval (steps ++ [search]) count := by
  refine ⟨fun streak hstreak hnot => ?_, fun _ => hend⟩
  obtain hsuffix | hinfix := List.infix_concat_iff.1 hstreak
  · exact Nat.lt_of_lt_of_le (hend streak hsuffix hnot) hcount
  · exact h.anywhere streak hinfix hnot

/-- One more accepted step, which is steep if it is the first one after a restart. -/
theorem Streaks.step (h : Streaks interval steps since) (hsince : since < interval)
    (hsteep : since = 0 → search.Steep) :
    Streaks interval (steps ++ [search]) (since + 1) := by
  refine h.concat hsince fun streak hstreak hnot => ?_
  obtain rfl | ⟨before, rfl, hbefore⟩ := List.suffix_concat_iff.1 hstreak
  · exact Nat.succ_pos since
  · have hpos : 0 < since := by
      refine Nat.pos_of_ne_zero fun hzero => ?_
      exact hnot search (by simp) (hsteep hzero)
    have hlt := h.atEnd hpos before hbefore fun step hmem => hnot step (by simp [hmem])
    rw [List.length_append, List.length_singleton]
    omega

/-! ## Loops -/

/-- What holds wherever a loop has come to the head of an iteration, after some searches. -/
structure State.Reached (problem : Problem α σ n) (rule : Rule α) (searches : List (Search α n))
    (s : State α n) : Prop where
  sound : s.Sound problem rule
  searched : ∀ search ∈ searches, search.Sound
  streaks : Streaks rule.interval (stepsOf searches) s.sinceRestart

variable {searches : List (Search α n)}

/-- The streaks after one more search. -/
theorem Settles.streaks (hs : t.Sound problem rule)
    (h : Settles problem rule search.aimed slope found search.leg) (haimed : search.aimed = t)
    (hstreaks : Streaks rule.interval (stepsOf searches) t.sinceRestart) :
    Streaks rule.interval (stepsOf (searches ++ [search])) search.next.sinceRestart := by
  subst haimed
  rw [stepsOf, List.filter_append]
  cases hmoved : search.moved with
  | false =>
    have hcount : search.next.sinceRestart = 0 :=
      h.count_eq_zero (Search.leg_of_not_moved hmoved)
    rw [List.filter_singleton, hmoved, hcount, cond_false, List.append_nil]
    exact hstreaks.restart
  | true =>
    have hstep := hstreaks.step hs.sinceRestart hs.direction
    rw [List.filter_singleton, hmoved, cond_true]
    rw [Search.leg_of_moved hmoved] at h
    obtain hcount | hcount := h.count_accepted <;> rw [hcount]
    · exact hstep.restart
    · exact hstep

/-- An iteration keeps what holds at its head. -/
theorem Turns.reached (hs : s.Reached problem rule searches)
    (h : Turns problem rule limit s (.again search t)) :
    t.Reached problem rule (searches ++ [search]) := by
  refine ⟨h.sound hs.sound, fun step hmem => ?_, ?_⟩
  · obtain hmem | hmem := List.mem_append.1 hmem
    · exact hs.searched step hmem
    · rw [List.mem_singleton.1 hmem]
      exact h.search_sound
  · obtain ⟨-, -, haim, -, hsettles, -, rfl⟩ := h.again
    refine hsettles.streaks (hs.sound.aimed haim) rfl ?_
    obtain heq | heq := aimed_eq haim <;> rw [heq]
    · exact hs.streaks
    · exact hs.streaks.restart

/-- A minimization starts soundly, whatever its functions give there. -/
theorem opening_keeps (problem : Problem α σ n) (rule : Rule α) (start : Vec α n) :
    (opening problem start).Keeps Invariant.none (State.Reached problem rule []) := by
  refine .bind (Run.keeps_gives _) fun gradient hgradient => ?_
  refine .bind (Run.keeps_gives _) fun smoothed hsmoothed => ?_
  refine .pure ⟨⟨hgradient, hsmoothed, rfl, rule.interval_pos, fun _ => rfl⟩,
    fun _ hmem => absurd hmem List.not_mem_nil, ?_⟩
  exact .nil rule.interval_pos

end

/-! ## Minimizations of what callers give -/

variable {α σ : Type} [Numeral α] {gradient : VectorField α σ} {start : Datum α}
  {options : Options α σ} {outside : Region α σ} {preconditioner : Option (Tensor α σ)}
  {task : Task α σ}

/-- What holds at the start and is kept by every iteration holds wherever a minimization has come
to. -/
theorem Task.Reaches.reached {session session' : Session α σ}
    {searches : List (Search α task.unknowns)} {s : State α task.unknowns}
    (h : task.Reaches session searches s session') :
    s.Reached task.problem task.rule searches := by
  obtain ⟨first, session₁, hopening, hpath⟩ := h
  refine hpath.invariant (P := fun searches s => s.Reached task.problem task.rule searches)
    ((opening_keeps _ _ _).of_ok trivial hopening).2 fun searches s hs => ?_
  refine (turn_keeps _ _ _ s).mono fun r hr search t hagain => ?_
  subst hagain
  exact hr.reached hs

/-- The interval between restarts is the number of unknowns, or the whole number that callers have
set. -/
theorem Task.interval_of_read
    (hread : Task.read gradient start options outside preconditioner = .ok task) :
    (options.restartInterval = .nothing → task.rule.interval = max task.unknowns 1) ∧
      ∀ i, options.restartInterval.toNumber = .ok (.whole i) → (task.rule.interval : Int) = i := by
  obtain ⟨settings, hsettings, -, -, hrule, -⟩ := Minimize.Task.setUp_eq_ok hread
  have hset := (Options.settings_eq_ok hsettings).restartInterval
  refine ⟨fun hnothing => ?_, fun i hi => ?_⟩
  · rw [hnothing] at hset
    have hmissing : settings.restartInterval = none := (Except.ok.inj hset).symm
    rw [Rule.interval, hrule, Settings.rule, hmissing, Option.map_none, Option.getD_none]
    dsimp only
    omega
  · have hgiven : options.restartInterval.given? = some options.restartInterval := by
      cases hd : options.restartInterval with
      | nothing =>
        rw [hd] at hi
        cases hi
      | _ => rfl
    rw [hgiven] at hset
    obtain ⟨m, hm, hset⟩ := Fault.bind_eq_ok hset
    cases (Datum.toNumber_of_insist hm).symm.trans hi
    have hgiven : settings.restartInterval = some (.whole i) := (Except.ok.inj hset).symm
    have hpos : (Number.whole i : Number α).isBelow 1 = false := by
      simpa [Number.admits] using Datum.admits_of_insist hm
    have hpos : 1 ≤ i := by simpa [Number.isBelow] using hpos
    rw [Rule.interval, hrule, Settings.rule, hgiven, Option.map_some, Option.getD_some,
      Number.roundsUntil]
    dsimp only
    omega

end Conjugate

open Conjugate

/-- **The heads of a minimization by conjugate gradients.** Wherever a minimization has come to the
head of an iteration, gradient, preconditioned gradient, product, direction and the count since the
last restart belong together; a search from there goes along a direction that descends; every
accepted step before led to the steepest direction or to a conjugate one; and of as many accepted
steps in a row as lie between two restarts, one was taken along the steepest direction. -/
theorem minimizeConjugate_heads {α σ : Type} [Numeral α] {gradient : VectorField α σ}
    {start : Datum α} {options : Conjugate.Options α σ} {outside : Region α σ}
    {preconditioner : Option (Tensor α σ)} {task : Task α σ} {session session' : Session α σ}
    {searches : List (Search α task.unknowns)} {s : State α task.unknowns}
    (hread : Task.read gradient start options outside preconditioner = .ok task)
    (hreaches : task.Reaches session searches s session') :
    -- this is a head of the run, and the run goes on from here
    ((solve task.problem task.rule task.budget task.start).run session =
        (iterate task.problem task.rule (task.budget - s.iterations) s).run session') ∧
      -- the interval between restarts
      (options.restartInterval = .nothing → task.rule.interval = max task.unknowns 1) ∧
      (∀ i, options.restartInterval.toNumber = .ok (.whole i) → (task.rule.interval : Int) = i) ∧
      -- the parts of the state
      (gradient.valueAt "gradient" s.point).Gives s.gradient ∧
      (∀ df : Vec α task.unknowns → Vec α task.unknowns,
        (∀ x, (gradient.valueAt "gradient" x).Returns (df x)) → s.gradient = df s.point) ∧
      (smooth preconditioner s.point s.gradient).Gives s.smoothed ∧
      (∀ M : Vec α task.unknowns → Vec α task.unknowns → Vec α task.unknowns,
        (∀ x g, (smooth preconditioner x g).Returns (M x g)) →
          s.smoothed = M s.point s.gradient) ∧
      s.product = Vec.dot s.gradient s.smoothed ∧
      s.sinceRestart < task.rule.interval ∧
      (s.sinceRestart = 0 → s.direction = -s.smoothed) ∧
      -- the searches from here on and before
      (∀ t slope, aim s = some (t, slope) → s.Starts t slope) ∧
      (∀ search ∈ searches, search.Sound) ∧
      (∀ steps, steps <:+: stepsOf searches → task.rule.interval ≤ steps.length →
        ∃ step ∈ steps, step.Steep) := by
  obtain ⟨settings, -, -, hproblem, -⟩ := Minimize.Task.setUp_eq_ok hread
  obtain ⟨hdefault, hset⟩ := Task.interval_of_read hread
  obtain ⟨hsound, hsearched, hstreaks⟩ := hreaches.reached
  have hg := hsound.gradient
  have hz := hsound.smoothed
  rw [hproblem] at hg hz
  refine ⟨hreaches.run_solve, hdefault, hset, hg, fun df hdf => (hdf _).eq_of_gives hg, hz,
    fun M hM => (hM _ _).eq_of_gives hz, hsound.product, hsound.sinceRestart, hsound.direction,
    fun t slope => aim_starts, hsearched, fun steps hsteps hlong => ?_⟩
  by_contra hnone
  have hshort := hstreaks.anywhere steps hsteps fun step hmem hsteep => hnone ⟨step, hmem, hsteep⟩
  omega

namespace Conjugate

/-- The gradient of `x²/2 + 2 y²`. -/
def bowl : VectorField Float Unit := fun x =>
  return .vector #[x.getD 0 0, 4 * x.getD 1 0]

/-- Whether the first two searches in the bowl, from `(1, 1)`, both end with an accepted step. -/
def bowlMoves : Run Float Unit Bool := do
  let task ← Run.ofExcept (Task.read bowl (.vector #[1, 1]) {} Region.everywhere none)
  let first ← opening task.problem task.start
  match ← turn task.problem task.rule task.budget first with
  | .done _ _ => return false
  | .again search s =>
    match ← turn task.problem task.rule task.budget s with
    | .done _ _ => return false
    | .again search' _ =>
      return search.moved && search'.moved && task.unknowns == 2

/-- Of the first two steps in the bowl one was taken along the steepest direction. -/
theorem minimizeConjugate_heads_bowl : ∃ task session searches s,
    Task.read bowl (.vector #[1, 1]) {} Region.everywhere none = .ok task ∧
      task.Reaches (.initial ()) searches s session ∧ (stepsOf searches).length = 2 ∧
      s.sinceRestart < 2 ∧ ∃ step ∈ stepsOf searches, step.Steep := by
  have hmoves : (match bowlMoves.run (.initial ()) with
      | .ok moves _ => moves
      | .error _ _ => false) = true := by decide +kernel
  cases hrun : bowlMoves.run (.initial ()) with
  | error fault session => simp [hrun] at hmoves
  | ok moves session =>
    rw [hrun] at hmoves
    subst hmoves
    obtain ⟨task, hread, hrun⟩ := Run.check_eq_ok hrun
    obtain ⟨first, session₁, hopening, hrun⟩ := Run.bind_eq_ok hrun
    obtain ⟨r, session₂, hturn, hrun⟩ := Run.bind_eq_ok hrun
    cases r with
    | done last report => cases hrun
    | again search s =>
      obtain ⟨r', session₃, hturn', hrun⟩ := Run.bind_eq_ok hrun
      cases r' with
      | done last report => cases hrun
      | again search' s' =>
        obtain ⟨hmoved, hunknowns⟩ : (search.moved = true ∧ search'.moved = true) ∧
            task.unknowns = 2 := by
          have := (EStateM.Result.ok.inj hrun).1
          simpa using this
        have hreaches : task.Reaches (.initial ()) [search, search'] s' session₃ :=
          ⟨first, session₁, hopening, (Run.Path.start.again hturn).again hturn'⟩
        have hsteps : stepsOf [search, search'] = [search, search'] := by
          simp [stepsOf, hmoved]
        obtain ⟨-, hinterval, -, -, -, -, -, -, hcount, -, -, -, hsteep⟩ :=
          minimizeConjugate_heads hread hreaches
        have htwo : task.rule.interval = 2 := by
          rw [hinterval rfl, hunknowns]
          rfl
        rw [htwo] at hcount hsteep
        refine ⟨task, session₃, _, s', hread, hreaches, by rw [hsteps]; rfl, hcount, ?_⟩
        exact hsteep _ List.infix_rfl (by rw [hsteps]; rfl)

end Conjugate

end Descent
