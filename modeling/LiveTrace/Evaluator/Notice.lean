import LiveTrace.Host.Basic
import LiveTrace.Run.Outcome

/-
  What is said to subscribers about a run that is over. A run that was told to stop counts as
  completed; one that changed nothing is not mentioned at all.
-/
namespace LiveTrace

inductive Notice where
  | completed (submission : Key) (report : RunReport)
  /-- The report is missing when the run had no working directory, or panicked. -/
  | failed (submission : Key) (error : EvalError) (report : Option RunReport)
  deriving DecidableEq, Repr

namespace Notice

/-- Whose run it was. -/
def submission : Notice → Key
  | completed k _ => k
  | failed k _ _ => k

def isFailure : Notice → Bool
  | completed _ _ => false
  | failed _ _ _ => true

def report? : Notice → Option RunReport
  | completed _ r => some r
  | failed _ _ r => r

/-- What is wrong, if the run failed. -/
def error? : Notice → Option EvalError
  | completed _ _ => none
  | failed _ e _ => some e

end Notice

/-- What is said about a run with a result. -/
def RunResult.notice? (k : Key) (r : RunResult) : Option Notice :=
  match r.outcome with
  | .completed | .aborted => r.report.map (Notice.completed k)
  | .missingDependency _ | .compileErrors _ => none
  | .faulted e => some (.failed k e r.report)

end LiveTrace
