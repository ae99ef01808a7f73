import LiveTrace.Error
import LiveTrace.Log
import LiveTrace.Number.Power

/-
  The configuration of an evaluator: where runs get their working directories, which
  directories are trusted, the name of the worker thread, and how old a leftover directory
  may grow. It comes from a JSON file or from defaults, and the environment can override the
  root.
-/
namespace LiveTrace

/-- The variables of the environment that matter, if set. -/
structure Environment where
  /-- INSTANT_WORKSPACE_DIR, the root to use. -/
  workspaceDir : Option String := none
  /-- USER, whose directory the default root is. -/
  user : Option String := none
  /-- TMPDIR, where the default root is. -/
  tempDir : Option String := none

structure EvaluatorConfig where
  workspaceRoot : String
  trustedReferenceDirs : List String := []
  workerThreadName : String := "instant-evaluator"
  /-- In seconds; `none` keeps leftovers for ever. -/
  staleWorkspaceMaxAge : Option Nat := some 3600
  deriving DecidableEq, Repr

namespace EvaluatorConfig

/-- The root when nobody names one. -/
def defaultRoot (env : Environment) : String :=
  Path.join (env.tempDir.getD "/tmp") ("instant-eval-" ++ env.user.getD "shared")

def default (env : Environment) : EvaluatorConfig := { workspaceRoot := defaultRoot env }

/-- The file looked for in the working directory. -/
def defaultFile : String := "instant.json"

def toJson (c : EvaluatorConfig) : Json :=
  .fields [("workspace_root", .ofString c.workspaceRoot),
    ("trusted_reference_dirs", .array (c.trustedReferenceDirs.map Json.ofString)),
    ("worker_thread_name", .ofString c.workerThreadName),
    ("stale_workspace_max_age_secs", (c.staleWorkspaceMaxAge.map Json.ofNat).getD .null)]

def fieldNames : List String :=
  ["workspace_root", "trusted_reference_dirs", "worker_thread_name",
   "stale_workspace_max_age_secs"]

/-- Reads a configuration; what is not given is as in the default one. -/
def ofJson? (env : Environment) (levels : Nat) (v : Json) : Option EvaluatorConfig := do
  let (levels, f) ← Json.fields? fieldNames levels v
  let d := default env
  let root ← f.withDefault "workspace_root" d.workspaceRoot Json.text?
  let trusted ← f.withDefault "trusted_reference_dirs" d.trustedReferenceDirs
    (Json.list? (fun _ => Json.text?) levels)
  let thread ← f.withDefault "worker_thread_name" d.workerThreadName Json.text?
  let age ← f.withDefault "stale_workspace_max_age_secs" d.staleWorkspaceMaxAge
    (Json.nullable? (Json.natBelow? (Number.pow2 64)))
  return ⟨root, trusted, thread, age⟩

/-- The configuration with the root that the environment names, unless that is empty. -/
def override (env : Environment) (c : EvaluatorConfig) : EvaluatorConfig :=
  match env.workspaceDir with
  | some dir => if dir.isEmpty then c else { c with workspaceRoot := dir }
  | none => c

/-- A configuration that can be used. -/
def validate (c : EvaluatorConfig) : Except ConfigError EvaluatorConfig :=
  if c.workspaceRoot.isEmpty then .error .emptyRoot
  else if c.workerThreadName.toList.contains '\x00' then .error .nulInThreadName
  else .ok c

/-- The configuration in a file. -/
def load (env : Environment) (f : Files) (path : String) : Except ConfigError EvaluatorConfig :=
  match f.readText path with
  | .error cause => .error (.unreadable path cause)
  | .ok text =>
    match Json.readText? (ofJson? env) text with
    | none => .error .notJson
    | some c => (c.override env).validate

/-- The configuration of the working directory `cwd`: the file there, or else the default one,
which is not checked. -/
def loadDefault (env : Environment) (f : Files) (cwd : String) :
    Except ConfigError EvaluatorConfig × List LogLine :=
  let path := Path.join cwd defaultFile
  if f.pathExists path then (load env f path, [])
  else
    (.ok ((default env).override env),
      [⟨.debug, s!"{defaultFile} not found in current directory, using defaults"⟩])

/-- Whether a path lies in a trusted directory, part by part as it is written. -/
def isTrusted (c : EvaluatorConfig) (path : String) : Bool :=
  c.trustedReferenceDirs.any fun dir => Path.startsWith path dir

end EvaluatorConfig

end LiveTrace
