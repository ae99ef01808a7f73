import LiveTrace.Project.Basic
import LiveTrace.Text.Quoted
import LiveTrace.Trace.Sink

/-
  A submission: one version of a program offered for evaluation, with the sink its events
  go to. Canceling it is for ever.
-/
namespace LiveTrace

abbrev SubmissionId := UInt32

structure Submission (σ : Type) where
  id : SubmissionId
  project : Project := {}
  /-- The code of the evaluation itself. -/
  code : String := ""
  sink : σ
  canceled : Bool := false
  /-- Anything its owner wants to see again on the event it ends in. -/
  tag : Option String := none
  createdAt : Instant := 0

namespace Submission

variable {σ : Type}

def cancel (s : Submission σ) : Submission σ := { s with canceled := true }

/-- The submission for a reader of a log. -/
def debugText (s : Submission σ) : String :=
  let tag := match s.tag with
    | some t => "Some(" ++ Text.quoted t ++ ")"
    | none => "None"
  "Submission \x7b id: SubmissionId(" ++ toString s.id.toNat ++
    "), sources: " ++ toString s.project.sources.length ++
    ", references: " ++ Text.quotedList s.project.references ++
    ", canceled: " ++ (if s.canceled then "true" else "false") ++
    ", tag: " ++ tag ++ " \x7d"

end Submission

end LiveTrace
