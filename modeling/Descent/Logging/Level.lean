import Descent.Fault

/-!
# Logging levels

A level is an integer: the higher, the more important. A flag may stand in its place and counts as
one or zero. Six levels have names. A name is read without regard to case, and a name that is not
known means `warning`; two names are taken by settings that are no levels and are refused.
-/

namespace Descent.Logging

/-- The importance of a record, and the threshold of a logger or a handler. -/
inductive Level where
  | number (i : Int)
  | flag (b : Bool)
  deriving DecidableEq, Repr

namespace Level

/-- The integer by which levels are compared. -/
def value : Level → Int
  | number i => i
  | flag b => if b then 1 else 0

/-- No threshold of one's own. -/
def unset : Level := number 0

def debug : Level := number 10

def info : Level := number 20

def warning : Level := number 30

def error : Level := number 40

def critical : Level := number 50

/-- Whether a level is there at all. -/
def isSet (level : Level) : Bool :=
  level.value ≠ unset.value

/-- Whether what has a level passes a threshold. -/
def reaches (level threshold : Level) : Bool :=
  threshold.value ≤ level.value

/-- The capitals of a character as far as level names can tell: some letters outside ASCII have one
or several ASCII capitals. -/
def capitals (c : Char) : List Char :=
  match c with
  | 'ı' => ['I']
  | 'ſ' => ['S']
  | 'ß' => ['S', 'S']
  | 'ﬀ' => ['F', 'F']
  | 'ﬁ' => ['F', 'I']
  | 'ﬂ' => ['F', 'L']
  | 'ﬃ' => ['F', 'F', 'I']
  | 'ﬄ' => ['F', 'F', 'L']
  | 'ﬅ' | 'ﬆ' => ['S', 'T']
  | c => [c.toUpper]

/-- The level of a name. -/
def ofName (name : String) : Except Fault Level :=
  match String.ofList (name.toList.flatMap capitals) with
  | "NOTSET" => .ok unset
  | "DEBUG" => .ok debug
  | "INFO" => .ok info
  | "ERROR" => .ok error
  | "CRITICAL" | "FATAL" => .ok critical
  | "BASIC_FORMAT" => .error .levelName
  | "_STYLES" => .error .level
  | _ => .ok warning

/-- A level without its name. -/
def plain : Level → String
  | number i => toString i
  | flag b => if b then "True" else "False"

/-- How a level is written. -/
def label (level : Level) : String :=
  if !level.isSet then "NOTSET"
  else if level = debug then "DEBUG"
  else if level = info then "INFO"
  else if level = warning then "WARNING"
  else if level = error then "ERROR"
  else if level = critical then "CRITICAL"
  else "Level " ++ level.plain

end Level

/-- A level as a caller gives it. -/
inductive LevelSpec where
  | level (level : Level)
  | name (name : String)
  /-- Anything else. -/
  | other

end Descent.Logging
