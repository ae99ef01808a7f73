import LiveTrace.Hook.Value
import LiveTrace.Host.Basic

/-
  The way from a hook to a sink. A call names the submission it belongs to and is refused
  when that is not the registered one. Beginnings and values are refused by a canceled sink;
  ends are taken first and refused then; and a canceled sink has the loop of an iteration
  closed before the call is refused.
-/
namespace LiveTrace

/-- Why code that calls hooks has to stop. -/
inductive Stop where
  | aborted
  | panicked (p : Panic)
  deriving DecidableEq, Repr

/-- What is said about a run that was told to stop. -/
def abortMessage : String := "evaluation aborted: submission canceled or superseded"

variable {σ : Type}

namespace Event

variable [TraceSink σ]

/-- Whether the sink of a submission with the given flag goes on after it was asked. -/
def goesOn (flag : Bool) : SinkCall σ Bool := do
  return !(← TraceSink.isCanceled flag)

/-- Offers an event to a sink; the result tells whether the run may go on. -/
def offer (flag : Bool) (e : Event) : SinkCall σ Bool :=
  match e with
  | .endMethod _ | .endLoop _ => do
    TraceSink.record e
    goesOn flag
  | .beginIteration id => do
    if ← goesOn flag then
      TraceSink.record e
      return true
    else
      TraceSink.record (.endLoop id)
      return false
  | .endIteration id => do
    TraceSink.record e
    if ← goesOn flag then
      return true
    else
      TraceSink.record (.endLoop id)
      return false
  | _ => do
    if ← goesOn flag then
      TraceSink.record e
      return true
    else
      return false

end Event

namespace Host

/-- The registered submission, if it has the id `sid`. -/
def registered? (h : Host σ) (sid : SubmissionId) : Option Key :=
  h.current.filter fun k => h.idOf? k = some sid

/-- Whether the submission `sid` is registered and its flag is not set. -/
def isActive (h : Host σ) (sid : SubmissionId) : Bool :=
  match h.registered? sid with
  | some k => !h.isCanceled k
  | none => false

/-- Reports an event of the submission `sid`. -/
def report [TraceSink σ] (h : Host σ) (sid : SubmissionId) (e : Event) :
    Host σ × Except Stop Unit :=
  match h.registered? sid with
  | none => (h, .error .aborted)
  | some k =>
    match h.withSink k (e.offer ·) with
    | (h, .ok true) => (h, .ok ())
    | (h, .ok false) => (h, .error .aborted)
    | (h, .error p) => (h, .error (.panicked p))

/-- Reports the new value of a variable. -/
def reportChange [TraceSink σ] (h : Host σ) (sid : SubmissionId) (id : UInt32) (name : String)
    (value : LoggedValue) : Host σ × Except Stop Unit :=
  h.report sid (.change ⟨id, name, value.display⟩)

/-- Reports a return with a value. -/
def reportReturn [TraceSink σ] (h : Host σ) (sid : SubmissionId) (id : UInt32)
    (value : LoggedValue) : Host σ × Except Stop Unit :=
  h.report sid (.ret ⟨id, some value.display⟩)

/-- Closes everything open in the sink of a submission. -/
def unwind [TraceSink σ] (h : Host σ) (k : Key) : Host σ × Except Panic Unit :=
  h.withSink k fun _ => TraceSink.unwind

end Host

end LiveTrace
