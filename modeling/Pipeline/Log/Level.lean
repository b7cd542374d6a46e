/-!
# Log levels and loggers

A *logger* has a name and a threshold.  It lets an event pass when the event's
level is not below the threshold; a logger at `off` lets nothing pass, and `off`
is not the level of any event.
-/

namespace Pipeline

/-- The severity of an event, or the threshold of a logger. -/
inductive Level
  | trace
  | debug
  | info
  | warn
  | error
  | off
  deriving DecidableEq, Repr, Inhabited

namespace Level

/-- The position of a level in ascending order of severity. -/
def rank : Level → Nat
  | .trace => 0
  | .debug => 1
  | .info => 2
  | .warn => 3
  | .error => 4
  | .off => 5

/-- The levels by ascending severity. -/
def all : List Level := [.trace, .debug, .info, .warn, .error, .off]

/-- The name of a level in settings. -/
def name : Level → String
  | .trace => "trace"
  | .debug => "debug"
  | .info => "info"
  | .warn => "warn"
  | .error => "error"
  | .off => "off"

/-- The name of a level as a constructor. -/
def label : Level → String
  | .trace => "Trace"
  | .debug => "Debug"
  | .info => "Info"
  | .warn => "Warn"
  | .error => "Error"
  | .off => "Off"

/-- The level with a name. -/
def ofName? (s : String) : Option Level := all.find? fun l => l.name = s

/-- Which of two levels is more severe. -/
def compare (a b : Level) : Ordering := Ord.compare a.rank b.rank

end Level

/-- A name and a threshold. -/
structure Logger where
  name : String
  threshold : Level
  deriving DecidableEq, Repr, Inhabited

/-- Whether an event of the level passes. -/
def Logger.enabled (l : Logger) (level : Level) : Bool :=
  level ≠ .off && l.threshold ≠ .off && l.threshold.rank ≤ level.rank

/-- The logger of events outside any evaluator. -/
def engineLogger : String := "the_conduit"

end Pipeline
