/-
  Lines written to the log.
-/
namespace LiveTrace

inductive LogLevel where
  | debug | info | warn | error
  deriving DecidableEq, Repr

def LogLevel.label : LogLevel → String
  | .debug => "debug"
  | .info => "info"
  | .warn => "warn"
  | .error => "error"

structure LogLine where
  level : LogLevel
  text : String
  deriving DecidableEq, Repr

/-- A line behind its level. -/
def LogLine.render (l : LogLine) : String := l.level.label ++ ": " ++ l.text

end LiveTrace
