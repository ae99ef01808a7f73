import LiveTrace.Evaluator.Notice
import LiveTrace.Run.Basic

/-
  The evaluator: one worker that runs submissions one at a time, and a slot where the latest
  of them waits. Whoever offers a submission puts it into the slot, cancels the one it finds
  there and wakes the worker; nobody waits for a run. There is room for one wake-up, and any
  number of offers made before it is received come to the same. The worker, an offer and the
  disposal go on step by step, so that their steps can come in any order.
-/
namespace LiveTrace

variable [Engine]

/-- Where the worker stands. -/
inductive Worker where
  /-- It waits for a wake-up. -/
  | waiting
  /-- It has received one. -/
  | woken
  /-- It is about to empty the slot. -/
  | taking
  /-- It has taken a submission whose run has not begun. -/
  | starting (k : Key)
  | running (r : Running)
  /-- A run is over, and something is to be said about it. -/
  | publishing (n : Notice)
  /-- It left its loop. -/
  | stopped
  /-- A sink panicked outside of a run. -/
  | dead
  /-- Start functions took more than the fuel there was. -/
  | exhausted
  deriving Inhabited

/-- Whether a thread in this place has come to its end. -/
def Worker.isFinished : Worker → Bool
  | stopped | dead => true
  | _ => false

/-- Someone who listens, and what was sent there. -/
structure Receiver where
  dropped : Bool := false
  notices : List Notice := []

structure Evaluator (σ : Type) where
  host : Host σ
  runner : Runner
  /-- The submission that waits for the worker. -/
  slot : Option Key := none
  /-- Whether a wake-up is waiting to be received. -/
  wakeUp : Bool := false
  disposed : Bool := false
  started : Bool := false
  /-- The worker that was started and not joined yet. -/
  worker : Option Worker := none
  /-- Everyone who ever listened. -/
  receivers : List Receiver := []
  /-- The places of the receivers that get the next notice. -/
  subscribers : List Nat := []

namespace Evaluator

variable {σ : Type}

/-- An evaluator whose runs get their working directories where the configuration says. -/
def create (c : EvaluatorConfig) (h : Host σ) : Host σ × Except EvalError (Evaluator σ) :=
  match Runner.create c h.files with
  | (f, .ok runner) =>
    let h := { h with files := f }
    (h, .ok { host := h, runner })
  | (f, .error e) => ({ h with files := f }, .error e)

/-- Starts the worker, which finds what was offered before. -/
def start (e : Evaluator σ) : Evaluator σ × Except EvalError Unit :=
  if e.disposed then (e, .error .disposed)
  else if e.started then (e, .error .alreadyStarted)
  else
    let host := (e.runner.sweep e.host).info "Evaluator worker started"
    ({ e with host, started := true, worker := some .waiting }, .ok ())

/-- Whether there is a worker that has not come to its end. -/
def isRunning (e : Evaluator σ) : Bool := (e.worker.map fun w => !w.isFinished).getD false

/-- A new receiver; its place is the number of those before it. -/
def subscribe (e : Evaluator σ) : Evaluator σ :=
  { e with
    receivers := e.receivers ++ [{}]
    subscribers := e.subscribers ++ [e.receivers.length] }

/-- Drops a receiver. It is forgotten when the next notice is due. -/
def unsubscribe (e : Evaluator σ) (place : Nat) : Evaluator σ :=
  { e with receivers := e.receivers.modify place fun r => { r with dropped := true } }

/-- Whether the receiver at a place is there to be sent something. -/
def listens (e : Evaluator σ) (place : Nat) : Bool :=
  ((e.receivers[place]?).map fun r => !r.dropped).getD false

/-- Sends a notice to every subscriber that listens, and forgets the others. -/
def publish (e : Evaluator σ) (n : Notice) : Evaluator σ :=
  let listening := e.subscribers.filter e.listens
  { e with
    subscribers := listening
    receivers := e.receivers.mapIdx fun place r =>
      if listening.contains place then { r with notices := r.notices ++ [n] } else r }

/-! The worker -/

def withWorker (e : Evaluator σ) (w : Worker) : Evaluator σ := { e with worker := some w }

/-- Goes on to publish, if there is anything to be said. -/
def announce (e : Evaluator σ) : Option Notice → Evaluator σ
  | some n => e.withWorker (.publishing n)
  | none => e.withWorker .waiting

/-- What the worker does when a run is over. After a panic it unwinds the sink, and does not
survive another panic there. -/
def conclude [TraceSink σ] (e : Evaluator σ) (k : Key) : Except Panic RunResult → Evaluator σ
  | .ok r =>
    let e := match r.outcome with
      | .faulted error =>
        let host := e.host.error
          s!"Submission {(e.host.idOf? k).getD 0} failed: {error.message}"
        { e with host }
      | _ => e
    e.announce (r.notice? k)
  | .error p =>
    let host := e.host.error s!"Submission {(e.host.idOf? k).getD 0} panicked: {p.message}"
    match host.unwind k with
    | (host, .ok _) =>
      { e with host }.announce (some (.failed k (.panicked p.message) none))
    | (host, .error _) => { e with host }.withWorker .dead

/-- Takes note of how far a run has come. -/
def follow [TraceSink σ] (e : Evaluator σ) (k : Key) : RunState → Evaluator σ
  | .running r => e.withWorker (.running r)
  | .done r => e.conclude k (.ok r)
  | .panicked p => e.conclude k (.error p)

/-- One step of the worker. Waiting, it only goes on when there is a wake-up. -/
def workerStep [TraceSink σ] (fuel : Nat) (e : Evaluator σ) : Evaluator σ :=
  match e.worker with
  | none => e
  | some .waiting => if e.wakeUp then { e with wakeUp := false }.withWorker .woken else e
  | some .woken =>
    if e.disposed then
      { e with host := e.host.info "Evaluator worker stopped" }.withWorker .stopped
    else e.withWorker .taking
  | some .taking =>
    match e.slot with
    | none => e.withWorker .waiting
    | some k => { e with slot := none }.withWorker (.starting k)
  | some (.starting k) =>
    match e.runner.start fuel e.host k with
    | (host, none) => { e with host }.withWorker .exhausted
    | (host, some s) => { e with host }.follow k s
  | some (.running r) =>
    let (host, s) := Run.advance e.host r
    { e with host }.follow r.identity.key s
  | some (.publishing n) => (e.publish n).withWorker .waiting
  | some .stopped | some .dead | some .exhausted => e

/-- Whether the worker goes nowhere before someone else does something. -/
def isAtRest (e : Evaluator σ) : Bool :=
  match e.worker with
  | none | some .stopped | some .dead | some .exhausted => true
  | some .waiting => !e.wakeUp
  | _ => false

/-- Lets the worker go on until it is at rest; `none` if it is not after as many steps. -/
def work [TraceSink σ] (fuel : Nat) : Nat → Evaluator σ → Option (Evaluator σ)
  | 0, e => if e.isAtRest then some e else none
  | steps + 1, e => if e.isAtRest then some e else work fuel steps (e.workerStep fuel)

/-! Offering a submission -/

/-- Where an offer stands. -/
inductive Offer where
  | called (k : Key)
  /-- The evaluator was seen to be disposed. -/
  | refused (k : Key)
  /-- About to put the submission into the slot. -/
  | swapping (k : Key)
  /-- About to cancel the one that was in the slot. -/
  | bumping (k : Key)
  /-- About to wake the worker. -/
  | waking
  | returned
  deriving DecidableEq, Repr

/-- One step of an offer. -/
def offerStep (e : Evaluator σ) : Offer → Evaluator σ × Offer
  | .called k => (e, if e.disposed then .refused k else .swapping k)
  | .refused k =>
    let host := e.host.warn
      s!"Evaluator disposed, canceling submission {(e.host.idOf? k).getD 0}"
    ({ e with host := host.cancel k }, .returned)
  | .swapping k =>
    ({ e with slot := some k }, match e.slot with
      | some bumped => .bumping bumped
      | none => .waking)
  | .bumping k =>
    let host := e.host.debug s!"Submission {(e.host.idOf? k).getD 0} superseded before running"
    ({ e with host := host.cancel k }, .waking)
  | .waking => ({ e with wakeUp := true }, .returned)
  | .returned => (e, .returned)

/-- An offer from beginning to end, with nothing else in between. -/
def push (e : Evaluator σ) (k : Key) : Evaluator σ :=
  (Nat.repeat (fun s => offerStep s.1 s.2) 4 (e, .called k)).1

/-! Disposal -/

/-- Where the disposal stands. -/
inductive Disposal where
  | called
  /-- About to wake the worker. -/
  | waking
  /-- Waiting for the end of the worker. -/
  | joining
  /-- About to empty the slot. -/
  | taking
  /-- About to cancel what was in the slot. -/
  | canceling (k : Key)
  | returned
  deriving DecidableEq, Repr

/-- One step of the disposal. Joining, it only goes on when the worker has come to its end. -/
def disposalStep (e : Evaluator σ) : Disposal → Evaluator σ × Disposal
  | .called => if e.disposed then (e, .returned) else ({ e with disposed := true }, .waking)
  | .waking => ({ e with wakeUp := true }, .joining)
  | .joining =>
    match e.worker with
    | none => (e, .taking)
    | some .stopped => ({ e with worker := none }, .taking)
    | some .dead =>
      let host := e.host.error "Evaluator worker terminated abnormally"
      ({ e with host, worker := none }, .taking)
    | some _ => (e, .joining)
  | .taking =>
    ({ e with slot := none }, match e.slot with
      | some k => .canceling k
      | none => .returned)
  | .canceling k =>
    let host := e.host.debug
      s!"Canceling pending submission {(e.host.idOf? k).getD 0} on dispose"
    ({ e with host := host.cancel k }, .returned)
  | .returned => (e, .returned)

/-- Stops the worker after its run and cancels what still waits; `none` if the run does not end
within as many steps. -/
def dispose [TraceSink σ] (fuel steps : Nat) (e : Evaluator σ) : Option (Evaluator σ) :=
  if e.disposed then some e
  else
    match work fuel steps (Nat.repeat (fun s => disposalStep s.1 s.2) 2 (e, .called)).1 with
    | none => none
    | some e =>
      match Nat.repeat (fun s => disposalStep s.1 s.2) 3 (e, Disposal.joining) with
      | (e, .returned) => some e
      | _ => none

end Evaluator

end LiveTrace
