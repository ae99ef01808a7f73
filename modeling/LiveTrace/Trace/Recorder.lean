import LiveTrace.Log
import LiveTrace.Trace.Event

/-
  The recorder: events in, operation tree out. Containers wait on a stack while code runs
  inside them and join their parent when they close; unwinding closes all that are open, so
  the tree of a run cut short is well formed too. Calls that fit nowhere are noted and
  change nothing.
-/
namespace LiveTrace

/-- A container that has begun and not ended. -/
inductive Open where
  | method (call : MethodCall)
  | loop (loop : Loop)
  | iteration (iteration : Iteration)

/-- The kinds of container. -/
inductive ContainerKind where
  | method | loop | iteration
  deriving DecidableEq, Repr

def ContainerKind.name : ContainerKind → String
  | .method => "method"
  | .loop => "loop"
  | .iteration => "iteration"

def Open.kind : Open → ContainerKind
  | method _ => .method
  | loop _ => .loop
  | iteration _ => .iteration

/-- What a recorder has to say about a call. -/
inductive Note where
  /-- An operation found nothing open to join. -/
  | dropped (id : UInt32)
  /-- An end did not match the innermost open container, if there was one. -/
  | endIgnored (expected : ContainerKind) (id : UInt32) (innermost : Option ContainerKind)
  /-- A loop began outside of any method. -/
  | loopOutside (id : UInt32)
  /-- An iteration began outside of a loop. -/
  | iterationOutside (id : UInt32)
  /-- An iteration closed with no loop below it. -/
  | iterationLost (id : UInt32)
  /-- Containers were open when the run ended. -/
  | unwinding (count : Nat)
  deriving DecidableEq, Repr

namespace Note

def level : Note → LogLevel
  | unwinding _ => .debug
  | _ => .warn

def message : Note → String
  | dropped id => s!"Dropping operation {id} recorded outside of any open container"
  | endIgnored expected id none => s!"Ignoring end of {expected.name} {id}: nothing is open"
  | endIgnored expected id (some kind) =>
    s!"Ignoring end of {expected.name} {id}: innermost open container is a {kind.name}"
  | loopOutside id => s!"Ignoring loop {id} started outside of any method"
  | iterationOutside id => s!"Ignoring iteration {id} started outside of a loop"
  | iterationLost id => s!"Loop iteration {id} closed outside of its loop"
  | unwinding count => s!"Unwinding {count} open trace container(s)"

def line (n : Note) : LogLine := ⟨n.level, n.message⟩

end Note

/-- The finished roots, and the open containers, innermost first. -/
structure Recorder where
  roots : Roots := []
  stack : List Open := []

namespace Recorder

/-- The containers open now. -/
def depth (r : Recorder) : Nat := r.stack.length

/-- The iterations with `op` at the end of the last one; `none` when there is none. -/
def addToLast (op : Operation) : List Iteration → Option (List Iteration)
  | [] => none
  | [i] => some [{ i with operations := i.operations ++ [op] }]
  | i :: j :: is => (addToLast op (j :: is)).map (i :: ·)

/-- A container with `op` at the end of its operations. A loop takes it into its latest
iteration, and refuses it when it has none. -/
def addTo (op : Operation) : Open → Option Open
  | .method m => some (.method { m with operations := m.operations ++ [op] })
  | .iteration i => some (.iteration { i with operations := i.operations ++ [op] })
  | .loop l => (addToLast op l.iterations).map fun is => .loop { l with iterations := is }

/-- Adds an operation to the innermost open container. -/
def append (r : Recorder) (op : Operation) : Recorder × List Note :=
  match r.stack with
  | [] => (r, [.dropped op.id])
  | top :: below =>
    match addTo op top with
    | some top => ({ r with stack := top :: below }, [])
    | none => (r, [.dropped op.id])

/-- Closes the innermost open container: an iteration joins the loop below it, a loop the
container below it, and a method its caller or, with no caller, the roots. -/
def closeTop (r : Recorder) : Recorder × List Note :=
  match r.stack with
  | [] => (r, [])
  | .iteration i :: .loop l :: below =>
    ({ r with stack := .loop { l with iterations := l.iterations ++ [i] } :: below }, [])
  | .iteration i :: below => ({ r with stack := below }, [.iterationLost i.id])
  | .loop l :: below => append { r with stack := below } (.loop l)
  | [.method m] => ({ roots := r.roots.insert m.id m, stack := [] }, [])
  | .method m :: below => append { r with stack := below } (.methodCall m)

/-- Closes the innermost container if it is of the expected kind. -/
def close (r : Recorder) (expected : ContainerKind) (id : UInt32) : Recorder × List Note :=
  match r.stack with
  | [] => (r, [.endIgnored expected id none])
  | top :: _ =>
    if top.kind = expected then r.closeTop
    else (r, [.endIgnored expected id (some top.kind)])

def push (r : Recorder) (c : Open) : Recorder := { r with stack := c :: r.stack }

/-- What one event does. -/
def record (r : Recorder) : Event → Recorder × List Note
  | .beginMethod id name arguments => (r.push (.method ⟨id, name, arguments, []⟩), [])
  | .endMethod id => r.close .method id
  | .beginLoop id =>
    match r.stack with
    | [] => (r, [.loopOutside id])
    | _ :: _ => (r.push (.loop ⟨id, []⟩), [])
  | .endLoop id => r.close .loop id
  | .beginIteration id =>
    match r.stack with
    | .loop _ :: _ => (r.push (.iteration ⟨id, []⟩), [])
    | _ => (r, [.iterationOutside id])
  | .endIteration id => r.close .iteration id
  | .change c => r.append (.stateChange c)
  | .ret v => r.append (.returnValue v)

/-- What a list of events does. -/
def play (r : Recorder) : List Event → Recorder × List Note
  | [] => (r, [])
  | e :: es =>
    let (r, first) := r.record e
    let (r, rest) := play r es
    (r, first ++ rest)

/-- Closes the innermost container, `count` times. -/
def closeTops : Nat → Recorder → Recorder × List Note
  | 0, r => (r, [])
  | count + 1, r =>
    let (r, first) := r.closeTop
    let (r, rest) := closeTops count r
    (r, first ++ rest)

/-- Closes everything that is open. -/
def unwind (r : Recorder) : Recorder × List Note :=
  if r.depth = 0 then (r, [])
  else
    let (s, notes) := closeTops r.depth r
    (s, .unwinding r.depth :: notes)

end Recorder

end LiveTrace
