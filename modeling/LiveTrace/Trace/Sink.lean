import LiveTrace.Trace.Recorder

/-
  Sinks: what the events of a run go to. A sink may panic at any call; what it was left as
  then, and what it wrote to the log, still counts. The sink of a run that nobody watches
  is a recorder, canceled when its submission is.
-/
namespace LiveTrace

/-- What code that panics leaves behind. -/
inductive Panic where
  | text (message : String)
  | other
  deriving DecidableEq, Repr

def Panic.message : Panic → String
  | text message => message
  | other => "non-string panic payload"

/-- What a call to a sink comes to: the sink afterwards, the lines it logged, and its result. -/
structure Reply (σ α : Type) where
  sink : σ
  log : List LogLine
  result : Except Panic α

/-- A call to a sink. -/
def SinkCall (σ α : Type) : Type := σ → Reply σ α

namespace SinkCall

variable {σ α β : Type}

/-- The call that does nothing. -/
def result (a : α) : SinkCall σ α := fun s => ⟨s, [], .ok a⟩

/-- One call and, unless it panics, the next one. -/
def andThen (x : SinkCall σ α) (f : α → SinkCall σ β) : SinkCall σ β := fun s =>
  match (x s).result with
  | .ok a =>
    let r := f a (x s).sink
    { r with log := (x s).log ++ r.log }
  | .error p => ⟨(x s).sink, (x s).log, .error p⟩

instance : Monad (SinkCall σ) where
  pure := SinkCall.result
  bind := SinkCall.andThen

end SinkCall

/-- A sink, and what can be asked of it: whether it is canceled when its submission's flag is
`flag`, to take an event, to close everything open, and its state. -/
class TraceSink (σ : Type) where
  isCanceled (flag : Bool) : SinkCall σ Bool
  record (e : Event) : SinkCall σ Unit
  unwind : SinkCall σ Unit
  depth (s : σ) : Nat
  roots (s : σ) : Roots

namespace Recorder

/-- A step of a recorder as a call to a sink: its notes are logged. -/
def call (step : Recorder → Recorder × List Note) : SinkCall Recorder Unit := fun r =>
  ⟨(step r).1, (step r).2.map Note.line, .ok ()⟩

instance : TraceSink Recorder where
  isCanceled flag := pure flag
  record e := call (·.record e)
  unwind := call unwind
  depth := depth
  roots := roots

end Recorder

/-- A recorder that no flag cancels. -/
structure DetachedRecorder where
  recorder : Recorder := {}

namespace DetachedRecorder

/-- A call to the recorder inside. -/
def inside {α : Type} (call : SinkCall Recorder α) : SinkCall DetachedRecorder α := fun s =>
  let r := call s.recorder
  ⟨⟨r.sink⟩, r.log, r.result⟩

instance : TraceSink DetachedRecorder where
  isCanceled _ := pure false
  record e := inside (TraceSink.record e)
  unwind := inside TraceSink.unwind
  depth s := s.recorder.depth
  roots s := s.recorder.roots

end DetachedRecorder

end LiveTrace
