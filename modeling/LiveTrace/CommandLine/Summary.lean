import LiveTrace.Evaluator.Notice
import LiveTrace.Trace.Json
import LiveTrace.Trace.Sink

/-
  What is printed about a run: whose it was, how it ended, its report, what was said about its
  options or modules, what went wrong, and its trace. Members with nothing in them are left
  out.
-/
namespace LiveTrace

/-- How a run ended, as far as it is printed. -/
inductive Ending where
  | completed
  | aborted
  | noChanges
  | failed
  deriving DecidableEq, Repr

def Ending.name : Ending → String
  | completed => "completed"
  | aborted => "aborted"
  | noChanges => "no_changes"
  | failed => "failed"

structure Summary where
  submission : SubmissionId
  ending : Ending
  report : Option RunReport := none
  diagnostics : List Diagnostic := []
  error : Option String := none
  trace : Roots := []

namespace Summary

/-- The ending, the diagnostics and the error that belong to an outcome. -/
def ofOutcome (s : Summary) : RunOutcome → Summary
  | .completed => { s with ending := .completed }
  | .aborted => { s with ending := .aborted }
  | .missingDependency path =>
    { s with ending := .noChanges, error := some s!"missing dependency {path}" }
  | .compileErrors e => { s with ending := .noChanges, diagnostics := e.diagnostics }
  | .faulted e => { s with ending := .failed, error := some e.message }

/-- The members in the order they are printed. -/
def toJson (s : Summary) : Json :=
  .fields ([("submission", .ofNat s.submission.toNat), ("outcome", .ofString s.ending.name)] ++
    (match s.report with
      | some r => [("report", r.toJson)]
      | none => []) ++
    (match s.diagnostics with
      | [] => []
      | ds => [("diagnostics", .array (ds.map fun d => .ofString d.render))]) ++
    (match s.error with
      | some e => [("error", .ofString e)]
      | none => []) ++
    [("trace", s.trace.toJson)])

variable {σ : Type} [TraceSink σ]

/-- What is printed about the result of a run. -/
def ofResult (s : Submission σ) (r : RunResult) : Summary :=
  ofOutcome
    { submission := s.id, ending := .completed, report := r.report
      trace := TraceSink.roots s.sink } r.outcome

/-- What is printed about a run that a notice tells of. Nothing is printed of one that was
canceled and did not fail. -/
def ofNotice? (s : Submission σ) : Notice → Option Summary
  | .completed _ report =>
    if s.canceled then none
    else some
      { submission := s.id, ending := .completed, report := some report
        trace := TraceSink.roots s.sink }
  | .failed _ e report => some
      { submission := s.id, ending := .failed, report, error := some e.message
        trace := TraceSink.roots s.sink }

end Summary

end LiveTrace
