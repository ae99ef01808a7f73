import LiveTrace.Trace.Operation

/-
  What a run reports while it goes on, and the natural stream of reports of a tree: a
  container begins, its contents follow in order, and it ends.
-/
namespace LiveTrace

/-- One call to a sink. -/
inductive Event where
  | beginMethod (id : UInt32) (name : String) (arguments : List StateChange)
  | endMethod (id : UInt32)
  | beginLoop (id : UInt32)
  | endLoop (id : UInt32)
  | beginIteration (id : UInt32)
  | endIteration (id : UInt32)
  | change (change : StateChange)
  | ret (ret : ReturnValue)
  deriving DecidableEq, Repr

/-- The name of the call. -/
def Event.name : Event → String
  | beginMethod _ _ _ => "begin_method"
  | endMethod _ => "end_method"
  | beginLoop _ => "begin_loop"
  | endLoop _ => "end_loop"
  | beginIteration _ => "begin_inside_loop"
  | endIteration _ => "end_inside_loop"
  | change _ => "log_variable_change"
  | ret _ => "log_return"

/-- Whether an event closes a container. -/
def Event.isEnd : Event → Bool
  | endMethod _ | endLoop _ | endIteration _ => true
  | _ => false

mutual

/-- The events of an operation. -/
def Operation.events : Operation → List Event
  | .stateChange c => [.change c]
  | .returnValue r => [.ret r]
  | .loop ⟨id, iterations⟩ => .beginLoop id :: eventsOfIterations iterations ++ [.endLoop id]
  | .methodCall ⟨id, name, arguments, operations⟩ =>
    .beginMethod id name arguments :: eventsOfOperations operations ++ [.endMethod id]

def eventsOfOperations : List Operation → List Event
  | [] => []
  | o :: os => o.events ++ eventsOfOperations os

def eventsOfIterations : List Iteration → List Event
  | [] => []
  | ⟨id, operations⟩ :: is =>
    .beginIteration id :: eventsOfOperations operations ++
      .endIteration id :: eventsOfIterations is

end

/-- The events of a call. -/
def MethodCall.events (m : MethodCall) : List Event := (Operation.methodCall m).events

end LiveTrace
