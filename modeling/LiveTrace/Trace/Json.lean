import LiveTrace.Json.Reading
import LiveTrace.Trace.Operation

/-
  Traces as JSON. An operation is one object: its kind and its fields side by side. Reading
  takes the fields in any order, or an array of the kind and the fields. The operations
  inside an operation are read from a value that is known already, where the kind may also
  be given by its number.
-/
namespace LiveTrace

namespace StateChange

def fields (c : StateChange) : List (String × Json) :=
  [("id", .ofNat c.id.toNat), ("name", .ofString c.name), ("value", .ofString c.value)]

def toJson (c : StateChange) : Json := .fields c.fields

def fieldNames : List String := ["id", "name", "value"]

def ofFields? (f : Json.Fields) : Option StateChange := do
  let id ← f.required "id" Json.uint32?
  let name ← f.required "name" Json.text?
  let value ← f.required "value" Json.text?
  return ⟨id, name, value⟩

def ofJson? (levels : Nat) (v : Json) : Option StateChange :=
  (Json.fields? fieldNames levels v).bind fun f => ofFields? f.2

end StateChange

namespace ReturnValue

def fields (r : ReturnValue) : List (String × Json) :=
  [("id", .ofNat r.id.toNat), ("value", (r.value.map Json.ofString).getD .null)]

def toJson (r : ReturnValue) : Json := .fields r.fields

def fieldNames : List String := ["id", "value"]

def ofFields? (f : Json.Fields) : Option ReturnValue := do
  let id ← f.required "id" Json.uint32?
  let value ← f.optional "value" Json.text?
  return ⟨id, value⟩

end ReturnValue

mutual

def Operation.toJson : Operation → Json
  | .stateChange c => .fields (("kind", .ofString "state_change") :: c.fields)
  | .returnValue r => .fields (("kind", .ofString "return_value") :: r.fields)
  | .loop ⟨id, iterations⟩ =>
    .fields [("kind", .ofString "loop"), ("id", .ofNat id.toNat),
      ("iterations", .array (iterationsToJson iterations))]
  | .methodCall ⟨id, name, arguments, operations⟩ =>
    .fields [("kind", .ofString "method_call"), ("id", .ofNat id.toNat), ("name", .ofString name),
      ("arguments", .array (arguments.map StateChange.toJson)),
      ("operations", .array (operationsToJson operations))]

def operationsToJson : List Operation → List Json
  | [] => []
  | o :: os => o.toJson :: operationsToJson os

def iterationsToJson : List Iteration → List Json
  | [] => []
  | ⟨id, operations⟩ :: is =>
    .fields [("id", .ofNat id.toNat), ("operations", .array (operationsToJson operations))] ::
      iterationsToJson is

end

/-- A call without a kind, as the roots of a trace are written. -/
def MethodCall.toJson (m : MethodCall) : Json :=
  .fields [("id", .ofNat m.id.toNat), ("name", .ofString m.name),
    ("arguments", .array (m.arguments.map StateChange.toJson)),
    ("operations", .array (operationsToJson m.operations))]

/-- The roots by their ids. -/
def Roots.toJson (roots : Roots) : Json :=
  .object (roots.map fun r => (Number.digits r.1.toNat, r.2.toJson))

namespace Operation

/-- The kinds of operation, in the order of their numbers. -/
inductive Kind where
  | stateChange | returnValue | loop | methodCall
  deriving DecidableEq, Repr

namespace Kind

def name : Kind → String
  | stateChange => "state_change"
  | returnValue => "return_value"
  | loop => "loop"
  | methodCall => "method_call"

def all : List Kind := [stateChange, returnValue, loop, methodCall]

/-- A kind by its name. -/
def ofText? (s : String) : Option Kind := all.find? (·.name == s)

/-- A kind by its name or, inside an operation, its number. -/
def ofJson? (inside : Bool) (v : Json) : Option Kind :=
  match v with
  | .number _ => if inside then (Json.uint64? v).bind fun n => all[n.toNat]? else none
  | _ => (Json.text? v).bind ofText?

/-- The fields beside the kind. -/
def fieldNames : Kind → List String
  | stateChange => StateChange.fieldNames
  | returnValue => ReturnValue.fieldNames
  | loop => ["id", "iterations"]
  | methodCall => ["id", "name", "arguments", "operations"]

end Kind

/-- The members that are not the kind, and those that are. -/
def splitKind (values : List (String × Json)) : List (String × Json) × List (String × Json) :=
  values.partition (·.1 != "kind")

/-- The kind of an operation, what is given for its fields, and the levels left for them. -/
def kindAndFields? (inside : Bool) : Nat → Json → Option (Kind × Json.Fields)
  | _ + 1, .object members =>
    match (Json.members? members).map splitKind with
    | some (others, [(_, tag)]) =>
      match Kind.ofJson? inside tag with
      | some k => if Json.hasTwice k.fieldNames others then none else some (k, ⟨true, others⟩)
      | none => none
    | _ => none
  | _ + 1, .array (tag :: items) =>
    match Kind.ofJson? inside tag with
    | some k => (Json.placedFields? k.fieldNames items).map (k, ·)
    | none => none
  | _, _ => none

end Operation

/-- A call from its fields, where `operations` reads its operations. -/
def MethodCall.ofFields? (operations : Json → Option (List Operation)) (levels : Nat)
    (f : Json.Fields) : Option MethodCall := do
  let id ← f.required "id" Json.uint32?
  let name ← f.required "name" Json.text?
  let arguments ← f.required "arguments" (Json.list? StateChange.ofJson? levels)
  let operations ← f.required "operations" operations
  return ⟨id, name, arguments, operations⟩

/-- A loop from its fields, where `iterations` reads its iterations. -/
def Loop.ofFields? (iterations : Json → Option (List Iteration)) (f : Json.Fields) :
    Option Loop := do
  let id ← f.required "id" Json.uint32?
  let iterations ← f.required "iterations" iterations
  return ⟨id, iterations⟩

/-- An iteration from its fields, where `operations` reads its operations. -/
def Iteration.ofFields? (operations : Json → Option (List Operation)) (f : Json.Fields) :
    Option Iteration := do
  let id ← f.required "id" Json.uint32?
  let operations ← f.required "operations" operations
  return ⟨id, operations⟩

mutual

/-- Reads an operation; `inside` tells that it stands inside another one. -/
def operation? (inside : Bool) : Nat → Json → Option Operation
  | 0, _ => none
  | levels + 1, v =>
    match Operation.kindAndFields? inside (levels + 1) v with
    | some (.stateChange, f) => (StateChange.ofFields? f).map .stateChange
    | some (.returnValue, f) => (ReturnValue.ofFields? f).map .returnValue
    | some (.loop, f) => (Loop.ofFields? (iterations? levels) f).map .loop
    | some (.methodCall, f) =>
      (MethodCall.ofFields? (innerOperations? levels) levels f).map .methodCall
    | none => none

/-- Reads the operations inside an operation. -/
def innerOperations? : Nat → Json → Option (List Operation)
  | levels + 1, .array items => items.mapM (operation? true levels)
  | _, _ => none

/-- Reads the iterations of a loop. -/
def iterations? : Nat → Json → Option (List Iteration)
  | levels + 1, .array items => items.mapM (iteration? levels)
  | _, _ => none

/-- Reads one iteration. -/
def iteration? : Nat → Json → Option Iteration
  | 0, _ => none
  | levels + 1, v =>
    match Json.fields? ["id", "operations"] (levels + 1) v with
    | some (_, f) => Iteration.ofFields? (innerOperations? levels) f
    | none => none

end

/-- Reads an operation that stands in no other one: all of it has to be sound, also what is
not used. -/
def Operation.ofJson? (levels : Nat) (v : Json) : Option Operation :=
  if v.isTakable levels then operation? false levels v else none

/-- Reads a call without a kind. -/
def MethodCall.ofJson? (levels : Nat) (v : Json) : Option MethodCall :=
  match Json.fields? Operation.Kind.methodCall.fieldNames levels v with
  | some (levels, f) => ofFields? (Json.list? Operation.ofJson? levels) levels f
  | none => none

/-- The id that a key of a trace is: digits as a number would have them. -/
def rootId? (key : List Char) : Option UInt32 :=
  if Json.isNumber key then Json.uint32? (.number key) else none

/-- Reads a trace; of two roots with one id the later counts. -/
def Roots.ofJson? : Nat → Json → Option Roots
  | levels + 1, .object members => go levels [] members
  | _, _ => none
where
  go (levels : Nat) (read : Roots) : List (List Char × Json) → Option Roots
    | [] => some read
    | (key, v) :: rest =>
      match rootId? key, MethodCall.ofJson? levels v with
      | some id, some call => go levels (read.insert id call) rest
      | _, _ => none

end LiveTrace
