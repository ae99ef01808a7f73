import LiveTrace.Error
import LiveTrace.Log
import LiveTrace.Workspace.RunId

/-
  The working directory of one run. A file comes in by being written or copied, under a name
  that is claimed first; a name stays claimed when the writing fails. Directories that runs
  left behind are found by their names and swept once they are old enough.
-/
namespace LiveTrace

structure Workspace where
  runId : String
  dir : String
  /-- The names claimed. -/
  claimed : List String := []
  deriving DecidableEq, Repr

/-- What an operation in a working directory comes to. -/
structure Staging where
  workspace : Workspace
  files : Files
  result : Except WorkspaceError String

namespace Workspace

/-- Makes the `n`-th working directory below `base`. -/
def create (base : String) (n : Nat) (f : Files) : Files × Except WorkspaceError Workspace :=
  let runId := RunId.ofIndex n
  let dir := Path.join base runId
  match f.makeDirAll dir with
  | (f, none) => (f, .ok ⟨runId, dir, []⟩)
  | (f, some cause) => (f, .error (.create dir cause))

/-- Claims a name and gives the path it stands for. -/
def claim (w : Workspace) (name : String) : Except WorkspaceError (Workspace × String) :=
  if w.claimed.contains name then .error (.alreadyPresent name w.runId)
  else .ok ({ w with claimed := w.claimed ++ [name] }, Path.join w.dir name)

/-- Writes a file and gives its path. -/
def writeFile (w : Workspace) (f : Files) (name : String) (bytes : List UInt8) : Staging :=
  match w.claim name with
  | .error e => ⟨w, f, .error e⟩
  | .ok (w, path) =>
    match f.write path bytes with
    | .ok f => ⟨w, f, .ok path⟩
    | .error cause => ⟨w, f, .error (.write path cause)⟩

/-- Copies a file under its own name and gives the path of the copy. -/
def stageFile (w : Workspace) (f : Files) (source : String) : Staging :=
  match Path.fileName? source with
  | none => ⟨w, f, .error (.unusableName source)⟩
  | some name =>
    match w.claim name with
    | .error e => ⟨w, f, .error e⟩
    | .ok (w, path) =>
      match f.copy source path with
      | .ok f => ⟨w, f, .ok path⟩
      | .error cause => ⟨w, f, .error (.copy source cause)⟩

/-- Removes the directory with all that is in it. -/
def remove (w : Workspace) (f : Files) : Files × List LogLine :=
  if !f.pathExists w.dir then (f, [])
  else match f.removeDirAll w.dir with
    | .ok f => (f, [])
    | .error e => (f, [⟨.warn, s!"Failed to remove run directory {w.dir}: {e.message}"⟩])

/-- Makes the directory that working directories stand in. -/
def makeBase (base : String) (f : Files) : Files × Option WorkspaceError :=
  match f.makeDirAll base with
  | (f, none) => (f, none)
  | (f, some cause) => (f, some (.createBase base cause))

/-- Whether what stands at a path was left behind by a run at least `maxAge` nanoseconds ago. -/
def isStale (f : Files) (path name : String) (maxAge : Nat) : Bool :=
  f.isDir path && RunId.isId name &&
  match f.modified? path with
  | some t => t ≤ f.now && maxAge ≤ f.now - t
  | none => false

/-- What a sweep comes to: how many directories it removed, and what it logged. -/
structure Sweep where
  files : Files
  removed : Nat := 0
  log : List LogLine := []

/-- Removes one entry if it is stale. -/
def Sweep.visit (s : Sweep) (base : String) (maxAge : Nat) (name : String) : Sweep :=
  let path := Path.join base name
  if isStale s.files path name maxAge then
    let found : LogLine := ⟨.info, s!"Cleaning up old workspace: {path}"⟩
    match s.files.removeDirAll path with
    | .ok f => ⟨f, s.removed + 1, s.log ++ [found]⟩
    | .error e =>
      { s with log := s.log ++
          [found, ⟨.warn, s!"Failed to remove old workspace {path}: {e.message}"⟩] }
  else s

/-- Removes every directory below `base` that a run left behind at least `maxAge` nanoseconds
ago. -/
def sweepOlder (base : String) (maxAge : Nat) (f : Files) : Except IoError Sweep :=
  if !f.pathExists base then .ok ⟨f, 0, []⟩
  else match f.readDir base with
    | .error e => .error e
    | .ok names => .ok (names.foldl (fun s name => s.visit base maxAge name) ⟨f, 0, []⟩)

/-- Removes every directory below `base` that a run left behind at least `maxAge` seconds ago. -/
def sweep (base : String) (maxAge : Nat) (f : Files) : Except IoError Sweep :=
  sweepOlder base (maxAge * nanosPerSecond.toNat) f

/-- A sweep on the way, which never fails; without a greatest age nothing is swept. -/
def sweepQuietly (base : String) (maxAge : Option Nat) (f : Files) : Sweep :=
  match maxAge with
  | none => ⟨f, 0, []⟩
  | some maxAge =>
    match sweep base maxAge f with
    | .error e =>
      ⟨f, 0, [⟨.warn, s!"Stale workspace sweep failed: {(EvalError.io e).message}"⟩]⟩
    | .ok s =>
      if s.removed = 0 then s
      else { s with log := s.log ++ [⟨.info, s!"Swept {s.removed} stale workspace(s)"⟩] }

end Workspace

end LiveTrace
