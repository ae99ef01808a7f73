import LiveTrace.Run.Stage

/-
  A run from its beginning to its end. It gets a working directory of its own, goes through
  its stages, registers its submission while its entry function runs, and leaves nothing
  behind: the registration is dropped, the directory removed, and the sink unwound, in this
  order. A run advances from hook to hook, so that other things can happen in between.
-/
namespace LiveTrace

/-- What runs submissions, one at a time. -/
structure Runner where
  config : EvaluatorConfig

/-- Whose run it is, and since when. -/
structure RunIdentity where
  key : Key
  id : SubmissionId
  runId : String
  submittedAt : Instant
  startedAt : Instant

variable [Engine]

/-- A run that has invoked its entry function. -/
structure Running where
  identity : RunIdentity
  workspace : Workspace
  code : Engine.Code

/-- Where a run stands. -/
inductive RunState where
  | running (r : Running)
  | done (r : RunResult)
  | panicked (p : Panic)

namespace Run

variable {σ : Type}

/-- Removes the working directory. -/
def removeWorkspace (h : Host σ) (w : Workspace) : Host σ :=
  let (f, log) := w.remove h.files
  { h with files := f }.write log

/-- The report of a run that ends now. -/
def reportOf (h : Host σ) (i : RunIdentity) (o : RunOutcome) : RunReport :=
  { submissionId := i.id
    runId := i.runId
    submittedAt := .ofInstant i.submittedAt
    startedAt := .ofInstant i.startedAt
    finishedAt := .ofInstant h.files.now
    aborted := o == .aborted }

/-- Writes what a run says about its outcome. -/
def noteOutcome (h : Host σ) (i : RunIdentity) (o : RunOutcome) : Host σ :=
  match o.note? i.id with
  | some text => h.debug text
  | none => h

/-- The end of a run whose outcome is known: the directory goes, the sink is unwound, and the
outcome is reported. -/
def finish [TraceSink σ] (h : Host σ) (i : RunIdentity) (w : Workspace) (o : RunOutcome) :
    Host σ × RunState :=
  match (removeWorkspace h w).unwind i.key with
  | (h, .error p) => (h, .panicked p)
  | (h, .ok _) =>
    let h := noteOutcome h i o
    (h, .done ⟨o, some (reportOf h i o)⟩)

/-- The end of a run that panicked before its sink was unwound. -/
def cutShort (h : Host σ) (w : Workspace) (p : Panic) : Host σ × RunState :=
  (removeWorkspace h w, .panicked p)

/-- Registers the submission and enters the entry function of a compiled unit. -/
def invoke [TraceSink σ] (h : Host σ) (i : RunIdentity) (w : Workspace) (c : Stage.Compiled) :
    Host σ × RunState :=
  match Engine.entry? c.core c.store c.unit Assembly.entryExport with
  | none => finish h i w (.faulted (.entryPointMissing Assembly.entryExport))
  | some code => (h.load i.key, .running ⟨i, w, code⟩)

/-- The outcome of a run whose code ended without a panic. -/
def outcomeOf : GuestEnd → RunOutcome
  | .returned _ => .completed
  | .aborted => .aborted
  | .fault f => .faulted (.runtime f)
  | .panicked p => .faulted (.panicked p.message)

/-- The end of a run whose code ended. -/
def ended [TraceSink σ] (h : Host σ) (r : Running) (e : GuestEnd) : Host σ × RunState :=
  let h := h.drop r.identity.id
  match e with
  | .panicked p => cutShort h r.workspace p
  | e => finish h r.identity r.workspace (outcomeOf e)

/-- Goes on to the next hook. -/
def advance [TraceSink σ] (h : Host σ) (r : Running) : Host σ × RunState :=
  match Guest.advance h r.code with
  | (h, .running code) => (h, .running { r with code })
  | (h, .ended e) => ended h r e

/-- Goes on to the end, if `fuel` advances are enough. -/
def toEnd [TraceSink σ] : Nat → Host σ → RunState → Host σ × Option (Except Panic RunResult)
  | _, h, .done r => (h, some (.ok r))
  | _, h, .panicked p => (h, some (.error p))
  | 0, h, .running _ => (h, none)
  | fuel + 1, h, .running r =>
    let (h, s) := advance h r
    toEnd fuel h s

end Run

namespace Runner

variable {σ : Type}

/-- A runner, and the files with the directory its runs get theirs in. -/
def create (c : EvaluatorConfig) (f : Files) : Files × Except EvalError Runner :=
  match Workspace.makeBase c.workspaceRoot f with
  | (f, none) => (f, .ok ⟨c⟩)
  | (f, some e) => (f, .error (.workspace e))

/-- Removes directories that earlier runs left behind. -/
def sweep (r : Runner) (h : Host σ) : Host σ :=
  let s := Workspace.sweepQuietly r.config.workspaceRoot r.config.staleWorkspaceMaxAge h.files
  { h with files := s.files }.write s.log

/-- Begins the run of a submission. `none` when start functions take more than `fuel` advances. -/
def start [TraceSink σ] (fuel : Nat) (r : Runner) (h : Host σ) (k : Key) :
    Host σ × Option RunState :=
  match h.submission? k with
  | none => (h, some (.panicked .other))
  | some sub =>
    match Workspace.create r.config.workspaceRoot h.runs h.files with
    | (f, .error e) => ({ h with files := f }, some (.done ⟨.faulted (.workspace e), none⟩))
    | (f, .ok w) =>
      let i : RunIdentity := ⟨k, sub.id, w.runId, sub.createdAt, f.now⟩
      let h := { h with files := f, runs := h.runs + 1 }.debug
        s!"Submission {sub.id} runs in {w.runId}"
      match Stage.prepare fuel r.config ⟨h, w⟩ sub with
      | (s, none) => (s.host, none)
      | (s, some (.error (.outcome o))) =>
        let (h, state) := Run.finish s.host i s.workspace o
        (h, some state)
      | (s, some (.error (.panicked p))) =>
        let (h, state) := Run.cutShort s.host s.workspace p
        (h, some state)
      | (s, some (.ok c)) =>
        let (h, state) := Run.invoke s.host i s.workspace c
        (h, some state)

/-- The run of a submission from beginning to end, if `fuel` is enough. A panic of its sink comes
out of the run. -/
def run [TraceSink σ] (fuel : Nat) (r : Runner) (h : Host σ) (k : Key) :
    Host σ × Option (Except Panic RunResult) :=
  match r.start fuel h k with
  | (h, none) => (h, none)
  | (h, some state) => Run.toEnd fuel h state

end Runner

end LiveTrace
