import LiveTrace.CommandLine.Watch
import LiveTrace.Files.Snapshot
import LiveTrace.Wasm.Engine
import Std.Time.DateTime.Timestamp

/-
  The program. It sees the files that an invocation names and prints what the invocation comes
  to. Working directories are kept in memory, so no run leaves one behind on disk.
-/
namespace LiveTrace.Program

open CommandLine

/-- How far a run may go. -/
def fuel : Nat := 1000000000000

/-- What stands on disk at a path. -/
def look (path : String) : IO Sight := do
  try
    return .content (← IO.FS.readBinFile path).toList
  catch
    | .inappropriateType .. => return .directory
    | _ => return .nothing

/-- The tree with what stands on disk now at some paths. -/
def refresh (f : Files) (paths : List String) : IO Files := do
  let now ← Std.Time.Timestamp.now
  paths.foldlM (fun f path => return f.reflect path (← look path))
    { f with now := now.toNanosecondsSinceUnixEpoch.val }

/-- Looks at the files again and again, and prints what is heard about runs. -/
partial def keepWatching (w : Watcher) (interval : Nat) : IO UInt32 := do
  IO.sleep interval.toUInt32
  let w := (w.withFiles (← refresh w.files w.input.watched)).poll
  match w.settle fuel with
  | none => return 1
  | some w =>
    let (w, lines) := w.listen
    lines.forM IO.println
    (← IO.getStdout).flush
    keepWatching w interval

/-- Prints an output and gives its exit code. -/
def finish (o : Output) : IO UInt32 := do
  IO.print o.out
  IO.eprint o.err
  return o.code.toUInt32

def environment : IO Environment := do
  return ⟨← IO.getEnv "INSTANT_WORKSPACE_DIR", ← IO.getEnv "USER", ← IO.getEnv "TMPDIR"⟩

/-- Does what the arguments ask for. -/
def run (args : List String) : IO UInt32 := do
  match parse args with
  | .error r => finish r.output
  | .ok i =>
    let cwd := (← IO.getEnv "PWD").getD "/"
    let names := ((Path.pieces cwd.toList).filter (· != [])).map String.ofList
    let start : Files := { workingDir := names }
    let f ← refresh (start.makeDirAll cwd).1 i.paths
    match (execute fuel (← environment) cwd i f).2 with
    | none => return 1
    | some (.finished o) => finish o
    | some (.watching w interval) =>
      IO.eprint w.greeting
      keepWatching w interval

end LiveTrace.Program

def main (args : List String) : IO UInt32 := LiveTrace.Program.run args
