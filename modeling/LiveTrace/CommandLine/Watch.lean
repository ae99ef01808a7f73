import LiveTrace.CommandLine.Basic
import LiveTrace.Evaluator.Basic

/-
  Watching files. At every poll the latest time at which one of them changed is compared with
  the one remembered; when it is another, a new submission is made and offered to the
  evaluator. What the evaluator says about its runs is printed line by line.
-/
namespace LiveTrace.CommandLine

/-- The files whose change calls for a new run. -/
def Input.watched (i : Input) : List String := i.sources ++ i.codeFile.toList ++ i.references

/-- The latest time at which one of some files changed; files that are missing do not count. -/
def latestChange (f : Files) (paths : List String) : Option Instant :=
  (paths.filterMap f.modified?).max?

/-- Whether a poll that finds `latest` calls for a new run when `seen` was found before. -/
def isDue (seen latest : Option Instant) : Bool := latest.isSome && latest != seen

variable [Engine]

structure Watcher where
  evaluator : Evaluator Recorder
  input : Input
  /-- The change that the latest submission was made for. -/
  seen : Option Instant := none
  /-- How many ids were given to submissions. -/
  ids : Nat := 0
  /-- How many notices were printed or passed over. -/
  heard : Nat := 0

namespace Watcher

/-- A watcher with its evaluator started. -/
def create (c : EvaluatorConfig) (input : Input) (f : Files) :
    Files × Except Failure Watcher :=
  match Evaluator.create c ({ files := f } : Host Recorder) with
  | (h, .error e) => (h.files, .error (.evaluation e))
  | (h, .ok e) =>
    match e.subscribe.start with
    | (_, .error x) => (h.files, .error (.evaluation x))
    | (e, .ok _) => (h.files, .ok { evaluator := e, input })

/-- What is printed when watching begins. -/
def greeting (w : Watcher) : String :=
  s!"Watching {w.input.watched.length} file(s), press Ctrl-C to stop\n"

def files (w : Watcher) : Files := w.evaluator.host.files

/-- The same watcher with files that look different. -/
def withFiles (w : Watcher) (f : Files) : Watcher :=
  { w with evaluator := { w.evaluator with host := { w.evaluator.host with files := f } } }

/-- Makes a submission and offers it. Its id is used up even if its code cannot be read. -/
def submit (w : Watcher) : Watcher :=
  let w := { w with ids := w.ids + 1 }
  let h := w.evaluator.host
  match w.input.submission h.files (UInt32.ofNat w.ids) with
  | .ok s =>
    let k := h.submissions.length
    let e := { w.evaluator with host := { h with submissions := h.submissions ++ [s] } }
    { w with evaluator := e.push k }
  | .error e =>
    let cause := match e.cause? with
      | some c => s!": {c.message}"
      | none => ""
    { w with evaluator :=
        { w.evaluator with host := h.warn s!"Skipping change: {e.message}{cause}" } }

/-- One look at the files. -/
def poll (w : Watcher) : Watcher :=
  let latest := latestChange w.files w.input.watched
  if isDue w.seen latest then { w with seen := latest }.submit else w

/-- The notices the watcher was sent. -/
def notices (w : Watcher) : List Notice :=
  ((w.evaluator.receivers.head?).map (·.notices)).getD []

/-- The line that is printed about a notice, if any is. -/
def line? (w : Watcher) (n : Notice) : Option String := do
  let s ← w.evaluator.host.submission? n.submission
  let summary ← Summary.ofNotice? s n
  return summary.toJson.compactText

/-- The lines about all notices that came since the last time. -/
def listen (w : Watcher) : Watcher × List String :=
  ({ w with heard := w.notices.length }, (w.notices.drop w.heard).filterMap w.line?)

/-- Lets the evaluator finish what it has to do; `none` if that takes more than `fuel`. -/
def settle (fuel : Nat) (w : Watcher) : Option Watcher :=
  (w.evaluator.work fuel fuel).map fun e => { w with evaluator := e }

end Watcher

/-- What an invocation comes to. -/
inductive Effect where
  | finished (o : Output)
  | watching (w : Watcher) (interval : Nat)

/-- The files that an invocation may read: its configuration, sources, code and references. -/
def Invocation.paths (i : Invocation) : List String :=
  i.config.getD EvaluatorConfig.defaultFile :: match i.command with
    | .run input _ | .watch input _ => input.watched
    | .cleanup _ => []

/-- Does what an invocation asks for in the working directory `cwd`; `none` if `fuel` is not
enough. No interval is shorter than ten milliseconds. -/
def execute (fuel : Nat) (env : Environment) (cwd : String) (i : Invocation) (f : Files) :
    Files × Option Effect :=
  match configuration env cwd i f with
  | .error e => (f, some (.finished e.output))
  | .ok c =>
    match i.command with
    | .run input pretty =>
      let (f, o) := runOnce fuel c input pretty f
      (f, o.map .finished)
    | .watch input interval =>
      match Watcher.create c input f with
      | (f, .error e) => (f, some (.finished e.output))
      | (f, .ok w) => (f, some (.watching w (max interval 10)))
    | .cleanup maxAge =>
      let (f, o) := cleanUp c maxAge f
      (f, some (.finished o))

end LiveTrace.CommandLine
