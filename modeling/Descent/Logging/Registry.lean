import Descent.Logging.Layout

/-!
# The registry of loggers

Loggers have dotted names below one package name. A logger has a level and handlers; a handler has a
level, a layout and a sink to which it writes lines. The registry also holds the level at which new
loggers start, and what has been written to every sink.

* `Registry.ensure` creates a logger when its name is met first;
* `Registry.setLevel` sets the level of all loggers, their handlers and all later ones;
* `Registry.configure` gives every existing logger one new handler;
* `Registry.write` sends a record through a logger: it is written when it reaches the level of the
  logger and that of the handler, and is above `unset`. A logger without a level of its own takes
  that of the nearest logger above it; above all of them stands `warning`.

A refused request leaves the registry as it was.
-/

namespace Descent.Logging

/-- Where lines go. -/
inductive Sink where
  | standardError
  | stream (id : String)
  deriving DecidableEq, Repr

/-- The parts of the library that write records. -/
inductive Source where
  | centralPath
  | conjugate
  | linearSystem
  | newton
  deriving DecidableEq, Repr

/-- The name of the logger of each part. -/
def Source.name : Source → String
  | .centralPath => "cgopt.barrier"
  | .conjugate => "cgopt.conjugate_gradient"
  | .linearSystem => "cgopt.krylov"
  | .newton => "cgopt.newton"

/-- A threshold, a layout and a sink. -/
structure Handler where
  level : Level
  layout : Layout
  sink : Sink

/-- A source of records. Records stay with the handlers of their own logger unless `propagate` is
set. -/
structure Logger where
  name : String
  level : Level
  handlers : List Handler
  propagate : Bool

/-- The state of logging. -/
structure Registry where
  /-- The loggers in the order in which they were created. -/
  loggers : List Logger
  /-- The level at which new loggers start. -/
  defaultLevel : Level
  /-- What every named stream has received. -/
  streams : List (String × String)
  /-- What standard error has received. -/
  standardError : String

namespace Registry

/-- The name above all loggers. -/
def package : String :=
  "cgopt"

/-- The full name of a logger: names outside the package are put below it. -/
def fullName (name : Option String) : String :=
  match name with
  | none => package
  | some name =>
    if name = package || (package ++ ".").isPrefixOf name then name else package ++ "." ++ name

/-- The logger of a full name. -/
def find? (r : Registry) (name : String) : Option Logger :=
  r.loggers.find? (·.name = name)

/-- The registry with a logger of this name, which is created at the default level if need be. -/
def ensure (r : Registry) (name : Option String) : Registry :=
  if (r.find? (fullName name)).isSome then r
  else
    let handler := ⟨r.defaultLevel, Layout.standard, .standardError⟩
    { r with loggers := r.loggers ++ [⟨fullName name, r.defaultLevel, [handler], false⟩] }

/-- The level that a caller means. -/
def levelOf : LevelSpec → Except Fault Level
  | .level level => .ok level
  | .name name => Level.ofName name
  | .other => .error .level

/-- Sets the level of every logger and handler, and of those to come. -/
def setLevel (r : Registry) (spec : LevelSpec) : Except Fault Registry := do
  let level ← levelOf spec
  let handlers := List.map fun (h : Handler) => { h with level }
  return { r with
    loggers := r.loggers.map fun l => { l with level, handlers := handlers l.handlers }
    defaultLevel := level }

/-- A named stream that has received nothing yet, unless it exists. -/
def openStream (r : Registry) (id : String) : Registry :=
  if r.streams.any (·.1 = id) then r else { r with streams := r.streams ++ [(id, "")] }

/-- Replaces the handlers of every logger by a single one and sets all levels. An empty layout
stands for the standard one. -/
def configure (r : Registry) (spec : LevelSpec) (layout : Layout) (sink : Sink) :
    Except Fault Registry := do
  let layout := if layout.isEmpty then Layout.standard else layout
  if !layout.isValid then throw .format
  let level ← levelOf spec
  let handler := ⟨level, layout, sink⟩
  return { r with
    loggers := r.loggers.map fun l => { l with level, handlers := [handler] }
    defaultLevel := level }

/-- The names that enclose a dotted name, from the nearest to the farthest. -/
def enclosing (name : String) : List String :=
  go name.toList.reverse
where
  /-- Drops the last part again and again; the characters come in reverse order. -/
  go : List Char → List String
    | [] => []
    | c :: rest => if c = '.' then String.ofList rest.reverse :: go rest else go rest

/-- The level that decides what a logger lets pass. -/
def effectiveLevel (r : Registry) (name : String) : Level :=
  match ((name :: enclosing name).filterMap r.find?).find? (·.level.isSet) with
  | some logger => logger.level
  | none => Level.warning

/-- Whether a logger lets records of this level pass. Records without a level above `unset` never
pass. -/
def isEnabled (r : Registry) (name : String) (level : Level) : Bool :=
  Level.unset.value < level.value && level.reaches (r.effectiveLevel name)

/-- Appends a line to a sink. -/
def append (r : Registry) (sink : Sink) (line : String) : Registry :=
  match sink with
  | .standardError => { r with standardError := r.standardError ++ line ++ "\n" }
  | .stream id =>
    { r with streams := r.streams.map fun s => if s.1 = id then (id, s.2 ++ line ++ "\n") else s }

/-- Hands a record to one handler. -/
def handle (record : Record) (r : Registry) (handler : Handler) : Registry :=
  if record.level.reaches handler.level then
    match handler.layout.render record with
    | some line => r.append handler.sink line
    | none => r
  else r

/-- Sends a record through the logger of its name. -/
def write (r : Registry) (record : Record) : Registry :=
  if r.isEnabled record.name record.level then
    match r.find? record.name with
    | some logger => logger.handlers.foldl (handle record) r
    | none => r
  else r

/-- The names of all loggers, in alphabetical order. -/
def names (r : Registry) : List String :=
  (r.loggers.map (·.name)).mergeSort (· ≤ ·)

/-- The registry before any request: the loggers of the solvers at the level `warning`. -/
def initial : Registry :=
  [Source.centralPath, .conjugate, .linearSystem, .newton].foldl
    (fun r source => r.ensure (some source.name)) ⟨[], Level.warning, [], ""⟩

end Registry

end Descent.Logging
