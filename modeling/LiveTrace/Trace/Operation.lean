/-
  The operation tree: what one submission's run did. Ids name places in the instrumented
  source, so the same statement has the same id in every iteration of a loop.
-/
namespace LiveTrace

/-- A named variable and the text of its new value. -/
structure StateChange where
  id : UInt32
  name : String
  value : String
  deriving DecidableEq, Repr

/-- Where a method returned; `none` is a return without a value. -/
structure ReturnValue where
  id : UInt32
  value : Option String
  deriving DecidableEq, Repr

mutual

/-- One recorded thing. -/
inductive Operation where
  | stateChange (change : StateChange)
  | returnValue (ret : ReturnValue)
  | loop (loop : Loop)
  | methodCall (call : MethodCall)

/-- One pass through the body of a loop. -/
structure Iteration where
  id : UInt32
  operations : List Operation

/-- Every pass of one run of a loop. -/
structure Loop where
  id : UInt32
  iterations : List Iteration

/-- A method that was entered: the root of a trace, or a nested call. -/
structure MethodCall where
  id : UInt32
  name : String
  arguments : List StateChange
  operations : List Operation

end

namespace Operation

/-- The source location an operation belongs to. -/
def id : Operation → UInt32
  | stateChange c => c.id
  | returnValue r => r.id
  | loop l => l.id
  | methodCall m => m.id

def stateChange? : Operation → Option StateChange
  | stateChange c => some c
  | _ => none

def returnValue? : Operation → Option ReturnValue
  | returnValue r => some r
  | _ => none

def loop? : Operation → Option Loop
  | loop l => some l
  | _ => none

def methodCall? : Operation → Option MethodCall
  | methodCall m => some m
  | _ => none

end Operation

mutual

/-- The loops of an operation, outer before inner and earlier before later. -/
def Operation.loops : Operation → List Loop
  | .stateChange _ => []
  | .returnValue _ => []
  | .loop ⟨id, iterations⟩ => ⟨id, iterations⟩ :: loopsOfIterations iterations
  | .methodCall ⟨_, _, _, operations⟩ => loopsOfOperations operations

def loopsOfOperations : List Operation → List Loop
  | [] => []
  | o :: os => o.loops ++ loopsOfOperations os

def loopsOfIterations : List Iteration → List Loop
  | [] => []
  | ⟨_, operations⟩ :: is => loopsOfOperations operations ++ loopsOfIterations is

end

namespace MethodCall

/-- Every loop that a call ran, through iterations and nested calls. -/
def loops (m : MethodCall) : List Loop := loopsOfOperations m.operations

/-- The last return recorded in the call's own body. -/
def returnValue? (m : MethodCall) : Option ReturnValue :=
  (m.operations.filterMap Operation.returnValue?).getLast?

end MethodCall

/-- The calls at the roots of a trace, by the id of their method, ids ascending. -/
abbrev Roots := List (UInt32 × MethodCall)

namespace Roots

/-- The trace with `call` as the only root under `id`. -/
def insert (id : UInt32) (call : MethodCall) : Roots → Roots
  | [] => [(id, call)]
  | (k, c) :: rest =>
    if id < k then (id, call) :: (k, c) :: rest
    else if id = k then (id, call) :: rest
    else (k, c) :: insert id call rest

/-- The root under an id. -/
def get? (roots : Roots) (id : UInt32) : Option MethodCall :=
  (roots.find? (·.1 == id)).map (·.2)

end Roots

end LiveTrace
