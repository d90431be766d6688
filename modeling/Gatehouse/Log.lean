/-!
# Log records

Operations return what they log as data, in the order in which it is logged.
-/

namespace Gatehouse

/-- Severities, the gravest first. -/
inductive Level where
  | error
  | warn
  | info
  | debug
  | trace
deriving DecidableEq

def Level.name : Level → String
  | .error => "ERROR"
  | .warn => "WARN"
  | .info => "INFO"
  | .debug => "DEBUG"
  | .trace => "TRACE"

/-- How far down the severities a level stands. -/
def Level.verbosity : Level → Nat
  | .error => 0
  | .warn => 1
  | .info => 2
  | .debug => 3
  | .trace => 4

structure LogRecord where
  level : Level
  text : String
deriving DecidableEq

namespace LogRecord

/-- A record as one line: its level, a blank and its text. -/
def render (r : LogRecord) : String := r.level.name ++ " " ++ r.text

/-- The records that are at least as grave as a level. -/
def upTo (level : Level) (log : List LogRecord) : List LogRecord :=
  log.filter fun r => r.level.verbosity ≤ level.verbosity

end LogRecord

end Gatehouse
