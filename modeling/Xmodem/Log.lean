/-!
# Log entries

A log entry is a text at a level. A log kept at some level takes the entries of that level and of
the more serious ones.
-/

namespace Xmodem

inductive Level where
  | debug
  | info
  | warn
  | error
  deriving DecidableEq, Repr

namespace Level

def rank : Level → Nat
  | debug => 0
  | info => 1
  | warn => 2
  | error => 3

def admits (threshold level : Level) : Bool :=
  threshold.rank ≤ level.rank

def name : Level → String
  | debug => "DEBUG"
  | info => "INFO"
  | warn => "WARN"
  | error => "ERROR"

end Level

structure LogEntry where
  level : Level
  text : String
  deriving DecidableEq, Repr

end Xmodem
