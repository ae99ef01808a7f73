import LiveTrace.Project.Submission
import LiveTrace.Time.Rfc3339

/-
  What is known of a finished run besides its trace: whose it was, where it ran, and when.
-/
namespace LiveTrace

structure RunReport where
  submissionId : SubmissionId
  /-- The name of the run's working directory. -/
  runId : String
  /-- When the submission was made, before any time spent waiting. -/
  submittedAt : Timestamp
  startedAt : Timestamp
  finishedAt : Timestamp
  /-- Whether a hook told the run to stop. -/
  aborted : Bool
  deriving DecidableEq, Repr

namespace RunReport

/-- Milliseconds the run took. -/
def elapsed (r : RunReport) : Int := r.finishedAt.millisSince r.startedAt

/-- Milliseconds the submission waited. -/
def queued (r : RunReport) : Int := r.startedAt.millisSince r.submittedAt

def toJson (r : RunReport) : Json :=
  .fields [("submission_id", .ofNat r.submissionId.toNat), ("run_id", .ofString r.runId),
    ("submitted_at", .ofString r.submittedAt.text), ("started_at", .ofString r.startedAt.text),
    ("finished_at", .ofString r.finishedAt.text), ("aborted", .bool r.aborted)]

def fieldNames : List String :=
  ["submission_id", "run_id", "submitted_at", "started_at", "finished_at", "aborted"]

/-- A time as a string. -/
def time? (v : Json) : Option Timestamp := v.text?.bind Timestamp.ofText?

def ofJson? (levels : Nat) (v : Json) : Option RunReport := do
  let (_, f) ← Json.fields? fieldNames levels v
  let submissionId ← f.required "submission_id" Json.uint32?
  let runId ← f.required "run_id" Json.text?
  let submittedAt ← f.required "submitted_at" time?
  let startedAt ← f.required "started_at" time?
  let finishedAt ← f.required "finished_at" time?
  let aborted ← f.required "aborted" Json.bool?
  return ⟨submissionId, runId, submittedAt, startedAt, finishedAt, aborted⟩

end RunReport

end LiveTrace
