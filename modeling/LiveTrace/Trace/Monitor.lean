import LiveTrace.Trace.Sink

/-
  A recorder under observation: it counts the events it takes, can keep a list of them, can
  report cancellation by itself after a number of them, and can panic at a chosen one.
-/
namespace LiveTrace

structure Monitor where
  recorder : Recorder := {}
  /-- How many events it takes before it reports cancellation. -/
  cancelAfter : Option Nat := none
  /-- Whether it keeps the events. -/
  keeps : Bool := false
  /-- The name of the event it panics at, and the panic. -/
  panicAt : Option (String × Panic) := none
  /-- The events taken. -/
  count : Nat := 0
  /-- The events kept. -/
  events : List Event := []

namespace Monitor

/-- A call to the recorder inside. -/
def inside {α : Type} (call : SinkCall Recorder α) : SinkCall Monitor α := fun m =>
  let r := call m.recorder
  ⟨{ m with recorder := r.sink }, r.log, r.result⟩

/-- Whether the events taken are as many as are allowed. -/
def isFull (m : Monitor) : Bool :=
  match m.cancelAfter with
  | some n => n ≤ m.count
  | none => false

/-- The panic that an event brings. -/
def panic? (m : Monitor) (e : Event) : Option Panic :=
  match m.panicAt with
  | some (name, p) => if name == e.name then some p else none
  | none => none

/-- Counts an event and, if it keeps events, keeps it. -/
def note (m : Monitor) (e : Event) : Monitor :=
  { m with count := m.count + 1, events := if m.keeps then m.events ++ [e] else m.events }

instance : TraceSink Monitor where
  isCanceled flag := fun m => ⟨m, [], .ok (flag || m.isFull)⟩
  record e := fun m =>
    match m.panic? e with
    | some p => ⟨m, [], .error p⟩
    | none => inside (TraceSink.record e) (m.note e)
  unwind := inside TraceSink.unwind
  depth m := m.recorder.depth
  roots m := m.recorder.roots

end Monitor

end LiveTrace
