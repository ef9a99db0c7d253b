import Descent.Datum
import Descent.Logging.Registry
import Descent.Vec

/-!
# Runs

A solver calls back into the functions it was given, and these may have effects of their own: they
may count their calls, write a trace or refuse a point. `Run α σ β` is a computation with a result
of type `β` over a `Session`, which holds the callers' own state of type `σ` next to the two things
the library keeps: the matrices built from entry functions and the registry of loggers. A run that
ends in a fault keeps the session it had reached.
-/

namespace Descent

/-- A square matrix together with its size. -/
abbrev Table (α : Type) := (n : Nat) × Mat α n n

/-- The matrix of one size among several. -/
def Table.find? {α : Type} (n : Nat) : List (Table α) → Option (Mat α n n)
  | [] => none
  | ⟨k, rows⟩ :: rest => if h : k = n then some (h ▸ rows) else Table.find? n rest

/-- What a run can read and change. -/
structure Session (α σ : Type) where
  /-- For every entry operator the matrices built from its entry function so far. -/
  tables : Array (List (Table α))
  /-- The loggers and what they have written. -/
  logging : Logging.Registry
  /-- The state of the callers' functions. -/
  caller : σ

/-- A computation over a session that may end in a fault. -/
abbrev Run (α σ β : Type) := EStateM Fault (Session α σ) β

namespace Session

variable {α σ : Type}

/-- A session in which nothing has happened. -/
def initial (caller : σ) : Session α σ :=
  ⟨#[], Logging.Registry.initial, caller⟩

end Session

namespace Run

variable {α σ β : Type}

/-- The result of a computation without effects. -/
def ofExcept : Except Fault β → Run α σ β
  | .ok b => pure b
  | .error fault => throw fault

/-- Whether debug lines of this part are written anywhere. -/
def debugEnabled (source : Logging.Source) : Run α σ Bool :=
  return (← get).logging.isEnabled source.name Logging.Level.debug

/-- Writes a debug line; the line is made only if someone listens. -/
def debug (source : Logging.Source) (line : Unit → String) : Run α σ Unit := do
  if ← debugEnabled source then
    modify fun s =>
      { s with logging := s.logging.write ⟨source.name, Logging.Level.debug, line ()⟩ }

/-- A place for the matrices of a new entry operator. -/
def newTables : Run α σ Nat :=
  modifyGet fun s => (s.tables.size, { s with tables := s.tables.push [] })

/-- The matrix of size `n` from an entry function, row by row. -/
def buildTable (entry : Nat → Nat → Run α σ α) (n : Nat) : Run α σ (Mat α n n) :=
  Vector.ofFnM fun i => Vector.ofFnM fun j => entry i j

/-- The matrix of size `n` of an entry function: built on first use and kept. -/
def table (slot : Nat) (entry : Nat → Nat → Run α σ α) (n : Nat) : Run α σ (Mat α n n) := do
  match Table.find? n ((← get).tables.getD slot []) with
  | some rows => return rows
  | none =>
    let rows ← buildTable entry n
    modify fun s => { s with tables := s.tables.modify slot (⟨n, rows⟩ :: ·) }
    return rows

end Run

end Descent
