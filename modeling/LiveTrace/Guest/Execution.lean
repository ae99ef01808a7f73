import LiveTrace.Guest.Call
import LiveTrace.Guest.Engine

/-
  Running code that calls hooks. The engine runs it up to a hook, the hook is called, and the
  code goes on behind it unless the hook stops it. Code sees nothing of a hook but whether it
  goes on.
-/
namespace LiveTrace

variable [Engine]

/-- How a run of code ends. -/
inductive GuestEnd where
  /-- It returned, leaving the store like this. -/
  | returned (s : Engine.Store)
  | fault (f : RuntimeFault)
  /-- A hook refused to go on. -/
  | aborted
  /-- A sink panicked. -/
  | panicked (p : Panic)

def CallFault.guestEnd : CallFault → GuestEnd
  | stop .aborted => .aborted
  | stop (.panicked p) => .panicked p
  | operand e => .fault (.operand e)

/-- Where a run of code stands. -/
inductive Guest where
  | running (c : Engine.Code)
  | ended (e : GuestEnd)

namespace Guest

variable {σ : Type} [TraceSink σ]

/-- Calls a hook for code that goes on as `next` behind the call. -/
def callHook (h : Host σ) (hook : Hook) (operands : List Wasm.Value)
    (memory : Option Wasm.Memory) (next : Engine.Code) : Host σ × Guest :=
  match GuestCall.ofOperands? hook operands with
  | none => (h, .ended (.fault (.trap .unreachable)))
  | some c =>
    match h.call memory c with
    | (h, .ok _) => (h, .running next)
    | (h, .error e) => (h, .ended e.guestEnd)

/-- Runs up to the next hook and calls it. -/
def advance (h : Host σ) (c : Engine.Code) : Host σ × Guest :=
  match Engine.resume c with
  | .returned s => (h, .ended (.returned s))
  | .trap t => (h, .ended (.fault (.trap t)))
  | .tired next => (h, .running next)
  | .hook hook operands memory next => callHook h hook operands memory next

/-- Runs to the end, if `fuel` advances are enough. -/
def drive : Nat → Host σ → Engine.Code → Host σ × Option GuestEnd
  | 0, h, _ => (h, none)
  | fuel + 1, h, c =>
    match advance h c with
    | (h, .ended e) => (h, some e)
    | (h, .running c) => drive fuel h c

end Guest

end LiveTrace
