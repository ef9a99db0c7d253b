import Descent.Proofs.Run.Comparison

/-!
# Requests about logging

Requests reach the registry one after the other: loggers are asked for, levels set and handlers
replaced, and records are written in between. Setting a level and configuring go through the loggers
and their handlers one by one, and each of them checks the level that it is given. Still a request
is either done as a whole or leaves everything as it was, and whatever the requests, all loggers look
alike.

* `Change`, `each`, `within`: changes that may stop halfway, to every item of a list and to a part
  of a whole;
* `setLevelEach`, `configureEach`: the two requests, logger by logger; `setLevelEach_eq`,
  `configureEach_eq`: they are `Registry.setLevel` and `Registry.configure`;
* `Request`, `Registry.served`: the requests, and the registry after one of them;
* `Registry.Aligned`: all loggers have one handler and the level of the registry;
* `logging_aligned`: what holds after every sequence of requests.
-/

namespace Descent.Logging

/-! ## Changes that may stop halfway -/

/-- A change of a state that may stop halfway: what it did until then stays done. -/
abbrev Change (S : Type) :=
  EStateM Fault S

section

variable {S T : Type}

/-- A change that is done as a whole or not at all. -/
def whole (f : S → Except Fault S) : Change S Unit := fun s =>
  match f s with
  | .ok s => .ok () s
  | .error fault => .error fault s

/-- The change to a part of a state. -/
def within (part : S → T) (replace : T → S → S) (change : Change T Unit) : Change S Unit :=
  fun s =>
    match change (part s) with
    | .ok _ t => .ok () (replace t s)
    | .error fault t => .error fault (replace t s)

/-- The change to the items of a list, one after the other. -/
def each (change : Change S Unit) : Change (List S) Unit
  | [] => .ok () []
  | s :: rest =>
    match change s with
    | .ok _ s =>
      match each change rest with
      | .ok _ rest => .ok () (s :: rest)
      | .error fault rest => .error fault (s :: rest)
    | .error fault s => .error fault (s :: rest)

/-- Hands over the level that is meant; whoever receives it checks it. -/
def assign (spec : LevelSpec) (receive : Level → S → S) : Change S Unit :=
  match Registry.levelOf spec with
  | .ok level => modify (receive level)
  | .error fault => throw fault

theorem within_modify (part : S → T) (replace : T → S → S) (f : T → T) :
    within part replace (modify f) = modify fun s => replace (f (part s)) s :=
  rfl

theorem each_modify (f : S → S) : each (modify f) = modify (List.map f) := by
  funext items
  induction items with
  | nil => rfl
  | cons s rest ih =>
    simp only [each, ih]
    rfl

theorem assign_of_ok {spec : LevelSpec} {level : Level} (h : Registry.levelOf spec = .ok level)
    (receive : Level → S → S) : assign spec receive = modify (receive level) := by
  rw [assign, h]

theorem assign_of_error {spec : LevelSpec} {fault : Fault} (h : Registry.levelOf spec = .error fault)
    (receive : Level → S → S) : assign spec receive = throw fault := by
  rw [assign, h]

end

/-! ## The requests, logger by logger -/

/-- A handler takes over a level. -/
def Handler.withLevel (level : Level) (h : Handler) : Handler :=
  { h with level }

/-- A logger takes over a level, but not yet its handlers. -/
def Logger.withLevel (level : Level) (l : Logger) : Logger :=
  { l with level }

/-- Every logger changes. -/
def eachLogger (change : Change Logger Unit) : Change Registry Unit :=
  within (·.loggers) (fun loggers r => { r with loggers }) (each change)

/-- The level at which new loggers start. -/
def assignDefault (spec : LevelSpec) : Change Registry Unit :=
  assign spec fun defaultLevel r => { r with defaultLevel }

/-- A logger and its handlers take over a level one after the other. -/
def Logger.setLevel (spec : LevelSpec) : Change Logger Unit := do
  assign spec Logger.withLevel
  within (·.handlers) (fun handlers l => { l with handlers })
    (each (assign spec Handler.withLevel))

/-- Sets the level of the loggers and handlers one by one. -/
def setLevelEach (spec : LevelSpec) : Change Registry Unit := do
  eachLogger (Logger.setLevel spec)
  assignDefault spec

/-- A logger takes over a level, drops its handlers and gets a new one. -/
def Logger.reset (spec : LevelSpec) (layout : Layout) (sink : Sink) : Change Logger Unit := do
  assign spec Logger.withLevel
  modify fun l => { l with handlers := [] }
  assign spec fun level l => { l with handlers := l.handlers ++ [⟨level, layout, sink⟩] }

/-- Gives the loggers their new handlers one by one. -/
def configureEach (spec : LevelSpec) (layout : Layout) (sink : Sink) : Change Registry Unit := do
  let layout := if layout.isEmpty then Layout.standard else layout
  if !layout.isValid then throw .format
  eachLogger (Logger.reset spec layout sink)
  assignDefault spec

/-- The registry with all loggers and the level for later ones changed. -/
def Registry.changed (f : Logger → Logger) (level : Level) (r : Registry) : Registry :=
  { r with loggers := r.loggers.map f, defaultLevel := level }

theorem eachLogger_modify {spec : LevelSpec} {level : Level} (h : Registry.levelOf spec = .ok level)
    (f : Logger → Logger) :
    (do eachLogger (modify f); assignDefault spec) = modify (Registry.changed f level) := by
  rw [assignDefault, assign_of_ok h, eachLogger, each_modify, within_modify]
  rfl

/-- A level that no logger accepts is refused before anything has changed. -/
theorem eachLogger_throw {spec : LevelSpec} {fault : Fault}
    (h : Registry.levelOf spec = .error fault) :
    (do eachLogger (throw fault); assignDefault spec) = throw fault := by
  rw [assignDefault, assign_of_error h]
  funext r
  obtain ⟨loggers, defaultLevel, streams, standardError⟩ := r
  cases loggers <;> rfl

/-- **Setting a level is done as a whole or not at all.** -/
theorem setLevelEach_eq (spec : LevelSpec) : setLevelEach spec = whole (·.setLevel spec) := by
  cases h : Registry.levelOf spec with
  | ok level =>
    have hlogger : Logger.setLevel spec = modify fun l =>
        { l with level, handlers := l.handlers.map (Handler.withLevel level) } := by
      rw [Logger.setLevel, assign_of_ok h, assign_of_ok h, each_modify, within_modify]
      rfl
    rw [setLevelEach, hlogger, eachLogger_modify h]
    funext r
    simp only [whole, Registry.setLevel, h]
    rfl
  | error fault =>
    have hlogger : Logger.setLevel spec = throw fault := by
      rw [Logger.setLevel, assign_of_error h]
      rfl
    rw [setLevelEach, hlogger, eachLogger_throw h]
    funext r
    simp only [whole, Registry.setLevel, h]
    rfl

/-- **So is configuring**, whatever is wrong with it. -/
theorem configureEach_eq (spec : LevelSpec) (layout : Layout) (sink : Sink) :
    configureEach spec layout sink = whole (·.configure spec layout sink) := by
  funext r
  simp only [configureEach, whole, Registry.configure]
  generalize (if layout.isEmpty = true then Layout.standard else layout) = layout
  split
  · rfl
  · cases h : Registry.levelOf spec with
    | ok level =>
      have hlogger : Logger.reset spec layout sink = modify fun l =>
          { l with level, handlers := [⟨level, layout, sink⟩] } := by
        rw [Logger.reset, assign_of_ok h, assign_of_ok h]
        rfl
      rw [hlogger]
      exact congrFun (eachLogger_modify h _) r
    | error fault =>
      have hlogger : Logger.reset spec layout sink = throw fault := by
        rw [Logger.reset, assign_of_error h]
        rfl
      rw [hlogger]
      exact congrFun (eachLogger_throw h) r

/-! ## Sequences of requests -/

/-- A request. -/
inductive Request where
  | get (name : Option String)
  | setLevel (spec : LevelSpec)
  | configure (spec : LevelSpec) (layout : Layout) (sink : Sink)
  | write (record : Record)

/-- What a request comes to. -/
def Request.effect (r : Registry) : Request → Except Fault Registry
  | get name => .ok (r.ensure name)
  | setLevel spec => r.setLevel spec
  | configure spec layout sink => r.configure spec layout sink
  | write record => .ok (r.write record)

/-- What a request does step by step, up to the point where it is refused. -/
def Request.perform : Request → Change Registry Unit
  | get name => modify (·.ensure name)
  | setLevel spec => setLevelEach spec
  | configure spec layout sink => configureEach spec layout sink
  | write record => modify (·.write record)

/-- **Every request is done as a whole or not at all.** -/
theorem Request.perform_eq (request : Request) : request.perform = whole (request.effect ·) := by
  cases request with
  | get | write => rfl
  | setLevel spec => exact setLevelEach_eq spec
  | configure spec layout sink => exact configureEach_eq spec layout sink

namespace Registry

/-- The registry after a request, also if that was refused. -/
def served (r : Registry) (request : Request) : Registry :=
  match request.perform r with
  | .ok _ r => r
  | .error _ r => r

/-- The names of the loggers in the order in which they were created. -/
def created (r : Registry) : List String :=
  r.loggers.map (·.name)

/-- Asks for a logger: the answer is its place among the loggers created, by which loggers are told
apart. -/
def lookup (name : Option String) : Change Registry Nat := do
  modify (·.ensure name)
  return (← get).created.idxOf (fullName name)

end Registry

/-- A logger with one handler, both at a level, that keeps its records to itself. -/
structure Logger.At (level : Level) (l : Logger) : Prop where
  level_eq : l.level = level
  handlers_eq : ∃ h, l.handlers = [h] ∧ h.level = level
  propagate_eq : l.propagate = false

namespace Registry

/-- All loggers are at the level at which new ones start. -/
def Aligned (r : Registry) : Prop :=
  ∀ l ∈ r.loggers, l.At r.defaultLevel

variable {r r' : Registry}

/-- What a request can do to the loggers of a registry. -/
inductive Serves (r : Registry) : Registry → Prop
  /-- It is refused. -/
  | refused : Serves r r
  | create (name : Option String) : Serves r (r.ensure name)
  /-- All loggers change, and they follow the new level. -/
  | change (f : Logger → Logger) (level : Level) (hname : ∀ l, (f l).name = l.name)
      (hat : ∀ l, l.At r.defaultLevel → (f l).At level) : Serves r (r.changed f level)
  | write (streams : List (String × String)) (standardError : String) :
      Serves r { r with streams, standardError }

theorem serves_setLevel {spec : LevelSpec} (h : r.setLevel spec = .ok r') : r.Serves r' := by
  obtain ⟨level, -, h⟩ := Fault.bind_eq_ok h
  cases h
  refine .change _ level (fun l => rfl) fun l hl => ?_
  obtain ⟨handler, hhandlers, -⟩ := hl.handlers_eq
  exact ⟨rfl, ⟨handler.withLevel level, by rw [hhandlers]; rfl, rfl⟩, hl.propagate_eq⟩

theorem serves_configure {spec : LevelSpec} {layout : Layout} {sink : Sink}
    (h : r.configure spec layout sink = .ok r') : r.Serves r' := by
  simp only [configure] at h
  generalize (if layout.isEmpty = true then Layout.standard else layout) = layout at h
  split at h
  · cases h
  obtain ⟨level, -, h⟩ := Fault.bind_eq_ok h
  cases h
  exact .change _ level (fun l => rfl) fun l hl => ⟨rfl, ⟨_, rfl, rfl⟩, hl.propagate_eq⟩

theorem serves_effect {request : Request} (h : request.effect r = .ok r') : r.Serves r' := by
  cases request with
  | get name =>
    cases h
    exact .create name
  | setLevel spec => exact serves_setLevel h
  | configure spec layout sink => exact serves_configure h
  | write record =>
    cases h
    obtain ⟨streams, standardError, hwrite⟩ := r.write_eq record
    rw [hwrite]
    exact .write streams standardError

/-- A request that is refused leaves everything as it was. -/
theorem perform_error {request : Request} {fault : Fault}
    (h : request.perform r = .error fault r') : request.effect r = .error fault ∧ r' = r := by
  rw [request.perform_eq, whole] at h
  split at h <;> cases h
  exact ⟨‹_›, rfl⟩

/-- **Every request does one of four things.** -/
theorem serves_served (r : Registry) (request : Request) : r.Serves (r.served request) := by
  rw [served, request.perform_eq, whole]
  cases h : request.effect r with
  | ok r' => exact serves_effect h
  | error fault => exact .refused

/-- A logger that is met first starts at the current level; one that is there stays what it is. -/
theorem ensure_eq (r : Registry) (name : Option String) :
    (fullName name ∈ r.created ∧ r.ensure name = r) ∨
    (fullName name ∉ r.created ∧ r.ensure name = { r with
      loggers := r.loggers ++ [⟨fullName name, r.defaultLevel,
        [⟨r.defaultLevel, Layout.standard, .standardError⟩], false⟩] }) := by
  have hfind : (r.find? (fullName name)).isSome = true ↔ fullName name ∈ r.created := by
    simp [find?, created, List.find?_isSome]
  by_cases h : (r.find? (fullName name)).isSome = true
  · exact .inl ⟨hfind.1 h, if_pos h⟩
  · exact .inr ⟨fun hmem => h (hfind.2 hmem), if_neg h⟩

theorem mem_created_ensure (r : Registry) (name : Option String) :
    fullName name ∈ (r.ensure name).created := by
  rcases r.ensure_eq name with ⟨h, heq⟩ | ⟨-, heq⟩
  · rwa [heq]
  · rw [heq]
    simp [created]

/-- Loggers stay aligned. -/
theorem Aligned.serves (h : r.Aligned) (hserves : r.Serves r') : r'.Aligned := by
  cases hserves with
  | refused => exact h
  | write streams standardError => exact h
  | create name =>
    rcases r.ensure_eq name with ⟨-, heq⟩ | ⟨-, heq⟩
    · rwa [heq]
    · rw [heq]
      intro l hl
      rcases List.mem_append.1 hl with hl | hl
      · exact h l hl
      · cases List.mem_singleton.1 hl
        exact ⟨rfl, ⟨_, rfl, rfl⟩, rfl⟩
  | change f level hname hat =>
    intro l hl
    obtain ⟨k, hk, rfl⟩ := List.mem_map.1 hl
    exact hat k (h k hk)

/-- Loggers keep their places. -/
theorem created_prefix_serves (h : r.Serves r') : r.created <+: r'.created := by
  cases h with
  | refused => exact List.prefix_rfl
  | write streams standardError => exact List.prefix_rfl
  | create name =>
    rcases r.ensure_eq name with ⟨-, heq⟩ | ⟨-, heq⟩
    · simp only [heq, List.prefix_rfl]
    · simp [heq, created]
  | change f level hname hat =>
    simp [created, changed, Function.comp_def, hname]

/-- What every request keeps, sequences of requests keep. -/
theorem aligned_foldl (requests : List Request) (h : r.Aligned) :
    (requests.foldl served r).Aligned := by
  induction requests generalizing r with
  | nil => exact h
  | cons request rest ih => exact ih (h.serves (r.serves_served request))

theorem created_prefix_foldl (requests : List Request) (r : Registry) :
    r.created <+: (requests.foldl served r).created := by
  induction requests generalizing r with
  | nil => exact List.prefix_rfl
  | cons request rest ih =>
    exact (created_prefix_serves (r.serves_served request)).trans (ih (r.served request))

/-- The loggers of the solvers are created one after the other. -/
theorem aligned_initial : Registry.initial.Aligned := by
  have hempty : (⟨[], Level.warning, [], ""⟩ : Registry).Aligned := nofun
  exact (((hempty.serves (.create _)).serves (.create _)).serves (.create _)).serves (.create _)

/-- A logger that was asked for is at the same place later. -/
theorem idxOf_created {later : Registry} (a : Option String)
    (h : (r.ensure a).created <+: later.created) :
    fullName a ∈ later.created ∧
    (r.ensure a).created.idxOf (fullName a) = later.created.idxOf (fullName a) := by
  obtain ⟨rest, hrest⟩ := h
  have hmem := r.mem_created_ensure a
  rw [← hrest]
  exact ⟨List.mem_append_left rest hmem, (List.idxOf_append_of_mem hmem).symm⟩

end Registry

open Registry in
/-- **Logging is consistent after every sequence of requests.** Every logger has one handler, logger
and handler are at the level of the registry, and records are not passed on. Two loggers that are
asked for, at the same time or with requests in between, are one just if their names are the same in
full. A logger that is asked for first is created at the current level, and no other logger and no
level changes by that. A request that is refused leaves everything as it was, although the loggers
are changed one by one: levels are set and handlers replaced for all loggers or for none. -/
theorem logging_aligned (requests : List Request) :
    let r := requests.foldl served Registry.initial
    (∀ l ∈ r.loggers, ∃ h, l.handlers = [h] ∧ l.level = r.defaultLevel ∧
      h.level = r.defaultLevel ∧ l.propagate = false) ∧
    (∀ (a b : Option String) (later : List Request), ∃ i j r₁ r₂,
      (lookup a).run r = .ok i r₁ ∧ (lookup b).run (later.foldl served r₁) = .ok j r₂ ∧
      (i = j ↔ fullName a = fullName b) ∧
      r₂.created[i]? = some (fullName a) ∧ r₂.created[j]? = some (fullName b)) ∧
    (∀ name, fullName name ∉ r.created → r.ensure name = { r with
      loggers := r.loggers ++ [⟨fullName name, r.defaultLevel,
        [⟨r.defaultLevel, Layout.standard, .standardError⟩], false⟩] }) ∧
    ∀ request : Request, request.perform = whole (request.effect ·) ∧
      ∀ fault r', request.perform.run r = .error fault r' →
        request.effect r = .error fault ∧ r' = r := by
  intro r
  refine ⟨fun l hl => ?_, fun a b later => ?_, fun name hname => ?_,
    fun request => ⟨request.perform_eq, fun _ _ => perform_error⟩⟩
  · have hat := aligned_foldl requests aligned_initial l hl
    obtain ⟨h, hhandlers, hlevel⟩ := hat.handlers_eq
    exact ⟨h, hhandlers, hat.level_eq, hlevel, hat.propagate_eq⟩
  · have hcreated := created_prefix_foldl later (r.ensure a)
    obtain ⟨hmem, hplace⟩ := idxOf_created a (hcreated.trans (created_prefix_serves (.create b)))
    refine ⟨_, _, _, _, rfl, rfl, ?_, ?_, List.getElem?_idxOf (mem_created_ensure _ b)⟩
    · rw [hplace, List.idxOf_inj hmem]
    · rw [hplace]
      exact List.getElem?_idxOf hmem
  · rcases r.ensure_eq name with ⟨h, -⟩ | ⟨-, heq⟩
    · exact absurd h hname
    · exact heq

open Registry in
/-- A level set, then a layout without a field, which is refused, and a new logger. -/
theorem logging_aligned_refused :
    let r := [Request.get (some "solver"), .setLevel (.name "debug")].foldl served Registry.initial
    let refused := Request.configure (.level Level.info) "plain" .standardError
    (∀ l ∈ r.loggers, ∃ h, l.handlers = [h] ∧ l.level = Level.debug ∧ h.level = Level.debug ∧
      l.propagate = false) ∧
    refused.perform.run r = .error .format r ∧ refused.effect r = .error .format ∧
    (r.ensure (some "probe")).loggers = r.loggers ++ [⟨"cgopt.probe", Level.debug,
      [⟨Level.debug, Layout.standard, .standardError⟩], false⟩] := by
  intro r refused
  obtain ⟨hloggers, -, hcreate, hrequests⟩ :=
    logging_aligned [Request.get (some "solver"), .setLevel (.name "debug")]
  have hlevel : r.defaultLevel = Level.debug := by decide +kernel
  have hname : fullName (some "probe") = "cgopt.probe" := by decide +kernel
  have hnew : fullName (some "probe") ∉ r.created := by decide +kernel
  have hlayout : Layout.isValid "plain" = false := by decide +kernel
  have heffect : refused.effect r = .error .format := by
    simp only [refused, Request.effect, configure]
    rw [if_pos]
    · rfl
    · rw [if_neg (by decide), hlayout]
      rfl
  obtain ⟨hperform, hrefused⟩ := hrequests refused
  have hrun : refused.perform.run r = .error .format r := by
    rw [hperform]
    simp only [EStateM.run, whole, heffect]
  refine ⟨fun l hl => hlevel ▸ hloggers l hl, hrun, (hrefused _ _ hrun).1, ?_⟩
  rw [hcreate _ hnew, hname, ← hlevel]

end Descent.Logging
