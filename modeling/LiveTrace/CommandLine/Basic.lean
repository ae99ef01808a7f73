import LiveTrace.CommandLine.Arguments
import LiveTrace.CommandLine.Summary
import LiveTrace.Run.Basic

/-
  What the subcommands do: a single run, whose summary is printed and whose failure shows in
  the exit code, and the removal of directories that runs left behind.
-/
namespace LiveTrace.CommandLine

/-- What is printed, and the exit code. -/
structure Output where
  code : Nat := 0
  out : String := ""
  err : String := ""
  deriving DecidableEq, Repr

/-- Why something could not be done at all. -/
inductive Failure where
  | evaluation (e : EvalError)
  /-- The file with the evaluation code could not be read. -/
  | unreadable (path : String) (cause : IoError)
  deriving DecidableEq, Repr

namespace Failure

def message : Failure → String
  | evaluation e => e.message
  | unreadable path _ => s!"Failed to read {path}"

/-- What it was caused by. -/
def cause? : Failure → Option IoError
  | evaluation (.io cause) => some cause
  | evaluation (.source e) => some e.cause
  | evaluation _ => none
  | unreadable _ cause => some cause

/-- The end of the program with this failure. -/
def output (f : Failure) : Output :=
  let cause := match f.cause? with
    | some c => s!"\n\nCaused by:\n    {c.message}"
    | none => ""
  { code := 1, err := s!"Error: {f.message}{cause}\n" }

end Failure

/-- How the program is used. -/
def usage : String :=
  "Usage: instant [--config FILE] COMMAND\n\n" ++
  "  run SOURCE... [INPUT] [--pretty]          evaluate once and print the trace\n" ++
  "  watch SOURCE... [INPUT] [--interval-ms N] evaluate whenever a file changes\n" ++
  "  cleanup [--max-age-secs N]                remove what earlier runs left behind\n\n" ++
  "INPUT is any of --eval CODE or --eval-file FILE, --reference FILE, --options OPTIONS\n"

/-- What is printed when nothing is to be done. -/
def Reply.output : Reply → Output
  | help => { out := usage }
  | version => { out := "instant-eval 0.1.0\n" }
  | misuse => { code := 2, err := usage }

namespace Input

def project (i : Input) : Project :=
  { sources := i.sources.map Source.file
    references := i.references
    compilerOptions := i.options }

/-- The evaluation code. -/
def readCode (i : Input) (f : Files) : Except Failure String :=
  match i.code, i.codeFile with
  | some code, _ => .ok code
  | none, some path =>
    match f.readText path with
    | .ok code => .ok code
    | .error cause => .error (.unreadable path cause)
  | none, none => .ok ""

/-- A submission made now. -/
def submission (i : Input) (f : Files) (id : SubmissionId) :
    Except Failure (Submission Recorder) :=
  (i.readCode f).map fun code =>
    { id, code, project := i.project, sink := {}, createdAt := f.now }

end Input

/-- The configuration an invocation names, or else the one of the working directory `cwd`. -/
def configuration (env : Environment) (cwd : String) (i : Invocation) (f : Files) :
    Except Failure EvaluatorConfig :=
  let r := match i.config with
    | some path => EvaluatorConfig.load env f path
    | none => (EvaluatorConfig.loadDefault env f cwd).1
  r.mapError fun e => .evaluation (.config e)

/-- What is printed about the result of a single run. -/
def resultOutput (pretty : Bool) (s : Submission Recorder) (r : RunResult) : Output :=
  let json := (Summary.ofResult s r).toJson
  { code := match r.outcome with
      | .faulted _ => 1
      | _ => 0
    out := (if pretty then json.prettyText else json.compactText) ++ "\n" }

/-- A single run; `none` if `fuel` is not enough for it. -/
def runOnce [Engine] (fuel : Nat) (c : EvaluatorConfig) (input : Input) (pretty : Bool)
    (f : Files) : Files × Option Output :=
  match Runner.create c f with
  | (f, .error e) => (f, some (Failure.output (.evaluation e)))
  | (f, .ok runner) =>
    match input.submission f 1 with
    | .error e => (f, some e.output)
    | .ok s =>
      match runner.run fuel ({ files := f, submissions := [s] } : Host Recorder) 0 with
      | (h, some (.ok r)) => (h.files, (h.submission? 0).map fun s => resultOutput pretty s r)
      | (h, _) => (h.files, none)

/-- Removes what runs left behind at least `maxAge` seconds ago. -/
def cleanUp (c : EvaluatorConfig) (maxAge : Nat) (f : Files) : Files × Output :=
  match Workspace.makeBase c.workspaceRoot f with
  | (f, some e) => (f, Failure.output (.evaluation (.workspace e)))
  | (f, none) =>
    match Workspace.sweep c.workspaceRoot maxAge f with
    | .error e => (f, Failure.output (.evaluation (.io e)))
    | .ok s =>
      (s.files, { err := s!"Removed {s.removed} workspace(s) under {c.workspaceRoot}\n" })

end LiveTrace.CommandLine
