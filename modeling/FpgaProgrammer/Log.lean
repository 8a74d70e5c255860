/-!
# Log levels

Messages have one of five levels. A filter names the least urgent level that is still recorded.
-/

namespace FpgaProgrammer

/-- How urgent a message is, most urgent first. -/
inductive LogLevel where
  | error
  | warn
  | info
  | debug
  | trace
  deriving Repr, DecidableEq

namespace LogLevel

/-- The place of a level in the order of urgency. -/
def rank : LogLevel → Nat
  | error => 1
  | warn => 2
  | info => 3
  | debug => 4
  | trace => 5

/-- The name of a level in a log line. -/
def label : LogLevel → String
  | error => "ERROR"
  | warn => "WARN"
  | info => "INFO"
  | debug => "DEBUG"
  | trace => "TRACE"

end LogLevel

/-- The least urgent level that is recorded, if any is. -/
abbrev LogFilter := Option LogLevel

/-- Messages of this level are recorded. -/
def LogFilter.records (filter : LogFilter) (level : LogLevel) : Bool :=
  match filter with
  | none => false
  | some least => level.rank ≤ least.rank

/-- A recorded message. -/
structure LogLine where
  /-- How urgent the message is. -/
  level : LogLevel
  /-- The message. -/
  text : String
  deriving Repr, DecidableEq

/-- A message as one line of text, its level first. -/
def LogLine.render (line : LogLine) : String :=
  line.level.label ++ " " ++ line.text

end FpgaProgrammer
