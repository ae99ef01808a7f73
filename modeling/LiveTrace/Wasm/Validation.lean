import LiveTrace.Number.Power
import LiveTrace.Wasm.Instruction

/-
  Which modules are valid: every instruction finds operands of the types it takes, every index
  names something, constants are constant, exports have different names, and nothing is too
  large. Code behind a branch that is always taken is checked with operands of any type.
-/
namespace LiveTrace.Wasm

/-- What the instructions of a function may refer to. -/
structure Context where
  funcs : List FuncType
  tables : List TableType
  memories : List Limits
  globals : List GlobalType
  /-- The functions that a reference may be taken of. -/
  declared : List Nat
  locals : List ValType := []
  /-- What a branch to each label takes, innermost label first. -/
  labels : List (List ValType) := []
  results : List ValType := []

/-- The operands, last one first. Below them anything may be taken when `open_` is set. -/
structure Operands where
  types : List (Option ValType)
  open_ : Bool

namespace Operands

/-- The operands with one more. -/
def push (o : Operands) (t : ValType) : Operands := { o with types := some t :: o.types }

/-- The operands with some more, the last of them on top. -/
def pushAll (o : Operands) (ts : List ValType) : Operands := ts.foldl push o

/-- Takes any operand. -/
def popAny (o : Operands) : Option (Option ValType × Operands) :=
  match o.types with
  | t :: rest => some (t, { o with types := rest })
  | [] => if o.open_ then some (none, o) else none

/-- Takes an operand of type `t`. -/
def pop (o : Operands) (t : ValType) : Option Operands :=
  match o.popAny with
  | some (none, o) => some o
  | some (some u, o) => if u = t then some o else none
  | none => none

/-- Takes operands of types `ts`, given last one first. -/
def popReversed (o : Operands) : List ValType → Option Operands
  | [] => some o
  | t :: ts => (o.pop t).bind fun o => popReversed o ts

/-- Takes operands of types `ts`, the last of them from the top. -/
def popAll (o : Operands) (ts : List ValType) : Option Operands := o.popReversed ts.reverse

/-- The operands a block begins with. -/
def entering (t : FuncType) : Operands := pushAll ⟨[], false⟩ t.params

/-- The operands behind a branch that is always taken. -/
def unreachable : Operands := ⟨[], true⟩

/-- Whether exactly operands of types `ts` are left. -/
def endsWith (o : Operands) (ts : List ValType) : Bool :=
  match o.popAll ts with
  | some o => o.types.isEmpty
  | none => false

/-- Takes what a function of type `t` takes and pushes what it gives. -/
def apply (o : Operands) (t : FuncType) : Option Operands :=
  (o.popAll t.params).map (·.pushAll t.results)

end Operands

/-- The operands after a selection. -/
def selectType (o : Operands) (type : Option ValType) : Option Operands := do
  let o ← o.pop .i32
  match type with
  | some t =>
    let o ← o.pop t
    let o ← o.pop t
    return o.push t
  | none =>
    let (a, o) ← o.popAny
    let (b, o) ← o.popAny
    let isNumber (t : Option ValType) : Bool := match t with
      | some t => !t.isRef
      | none => true
    if !isNumber a || !isNumber b then none
    else match a, b with
      | some x, some y => if x = y then some (o.push x) else none
      | some x, none => some (o.push x)
      | none, some y => some (o.push y)
      | none, none => some { o with types := none :: o.types }

/-- The context inside a block whose branches take `ts`. -/
def Context.inside (c : Context) (ts : List ValType) : Context :=
  { c with labels := ts :: c.labels }

mutual

/-- The operands after an instruction. -/
def Instr.check (c : Context) (o : Operands) : Instr → Option Operands
  | .unreachable => some .unreachable
  | .nop => some o
  | .drop => o.popAny.map (·.2)
  | .select type => selectType o type
  | .const v => some (o.push v.type)
  | .numeric op => o.apply op.type
  | .localGet i => c.locals[i]?.map o.push
  | .localSet i => c.locals[i]?.bind o.pop
  | .localTee i => c.locals[i]?.bind fun t => o.apply ⟨[t], [t]⟩
  | .globalGet i => c.globals[i]?.map fun g => o.push g.value
  | .globalSet i => c.globals[i]?.bind fun g => if g.mutable then o.pop g.value else none
  | .load access target =>
    if target.memory < c.memories.length then o.apply ⟨[.i32], [access.type]⟩ else none
  | .store access target =>
    if target.memory < c.memories.length then o.apply ⟨[.i32, access.type], []⟩ else none
  | .memorySize m => if m < c.memories.length then some (o.push .i32) else none
  | .memoryGrow m => if m < c.memories.length then o.apply ⟨[.i32], [.i32]⟩ else none
  | .refNull t => some (o.push t)
  | .refFunc f =>
    if f < c.funcs.length && c.declared.contains f then some (o.push .funcref) else none
  | .refIsNull =>
    match o.popAny with
    | some (none, o) => some (o.push .i32)
    | some (some t, o) => if t.isRef then some (o.push .i32) else none
    | none => none
  | .block t body =>
    if (checkAll (c.inside t.results) (.entering t) body).any (·.endsWith t.results) then o.apply t
    else none
  | .loop t body =>
    if (checkAll (c.inside t.params) (.entering t) body).any (·.endsWith t.results) then o.apply t
    else none
  | .branch t yes no =>
    let c := c.inside t.results
    if (checkAll c (.entering t) yes).any (·.endsWith t.results) &&
        (checkAll c (.entering t) no).any (·.endsWith t.results) then
      (o.pop .i32).bind (·.apply t)
    else none
  | .br l => c.labels[l]?.bind fun ts => (o.popAll ts).map fun _ => .unreachable
  | .brIf l => (o.pop .i32).bind fun o => c.labels[l]?.bind fun ts => o.apply ⟨ts, ts⟩
  | .brTable ls l =>
    (o.pop .i32).bind fun o => c.labels[l]?.bind fun ts =>
      if ls.all (fun k => match c.labels[k]? with
        | some us => us.length == ts.length && (o.popAll us).isSome
        | none => false) then (o.popAll ts).map fun _ => .unreachable
      else none
  | .ret => (o.popAll c.results).map fun _ => .unreachable
  | .call f => c.funcs[f]?.bind o.apply
  | .callIndirect t type =>
    match c.tables[t]? with
    | some table => if table.element = .funcref then (o.pop .i32).bind (·.apply type) else none
    | none => none

/-- The operands after some instructions. -/
def checkAll (c : Context) (o : Operands) : List Instr → Option Operands
  | [] => some o
  | i :: is =>
    match i.check c o with
    | some o => checkAll c o is
    | none => none

end

/-- Whether instructions turn what a function takes into what it gives. -/
def checkBody (c : Context) (t : FuncType) (body : List Instr) : Bool :=
  (checkAll c (.entering t) body).any (·.endsWith t.results)

namespace Module

/-- The functions that the module names outside of function bodies. -/
def declaredFuncs (m : Module) : List Nat :=
  let named (is : List Instr) : List Nat := is.filterMap fun i => match i with
    | .refFunc f => some f
    | _ => none
  m.exports.filterMap (fun e => match e.target with
    | .func f => some f
    | _ => none) ++
  m.elements.flatMap (fun e => e.items.flatMap named) ++ m.globals.flatMap (fun g => named g.init)

def context (m : Module) : Context :=
  { funcs := m.funcTypes, tables := m.tableTypes, memories := m.memoryTypes,
    globals := m.globalTypes, declared := m.declaredFuncs }

/-- Whether instructions are one constant of type `t`. Of the globals only imported ones that
never change are constant. -/
def isConstant (m : Module) (t : ValType) (is : List Instr) : Bool :=
  match is with
  | [.const v] => v.type == t
  | [.refNull u] => u == t
  | [.refFunc f] => f < m.funcTypes.length && t == .funcref
  | [.globalGet i] => match m.importedGlobals[i]? with
    | some g => !g.mutable && g.value == t
    | none => false
  | _ => false

/-- How many parameters, and how many results, a function may have. -/
def maxValues : Nat := 1000

/-- How many tables, and how many memories, a module may have. -/
def maxStorages : Nat := 100

/-- How many imports, exports or segments of one kind a module may have. -/
def maxEntries : Nat := 100000

/-- The greatest size that a table may start with. -/
def maxTableSize : Nat := 10000000

def validType (t : FuncType) : Bool :=
  t.params.length ≤ maxValues && t.results.length ≤ maxValues

def validName (name : String) : Bool := name.utf8ByteSize ≤ maxNameSize

def validFunc (m : Module) (f : Func) : Bool :=
  let locals := f.type.params ++ f.locals
  let c := { m.context with
    locals := locals, labels := [f.type.results], results := f.type.results }
  locals.length ≤ maxLocals && checkBody c ⟨[], f.type.results⟩ f.body

/-- Whether the sizes are at most `most` and in order. -/
def validLimits (most : Nat) (l : Limits) : Bool :=
  l.min ≤ most && match l.max with
    | some max => l.min ≤ max && max ≤ most
    | none => true

def validTable (t : TableType) : Bool :=
  t.element.isRef && t.limits.min ≤ maxTableSize && validLimits (Number.pow2 32 - 1) t.limits

def validTarget (m : Module) : ExportTarget → Bool
  | .func i => i < m.funcTypes.length
  | .table i => i < m.tableTypes.length
  | .memory i => i < m.memoryTypes.length
  | .global i => i < m.globalTypes.length

def validStart (m : Module) : Bool :=
  match m.start with
  | none => true
  | some f => m.funcTypes[f]? == some ⟨[], []⟩

def validElements (m : Module) (e : Elements) : Bool :=
  e.type.isRef && e.items.all (m.isConstant e.type) &&
  match e.mode with
  | .passive => true
  | .active t offset =>
    (match m.tableTypes[t]? with
      | some table => table.element == e.type
      | none => false) && m.isConstant .i32 offset

def validData (m : Module) (d : Data) : Bool :=
  match d.mode with
  | .passive => true
  | .active i offset => i < m.memoryTypes.length && m.isConstant .i32 offset

/-- Whether there is nothing too many of. -/
def isModest (m : Module) : Bool :=
  m.tableTypes.length ≤ maxStorages && m.memoryTypes.length ≤ maxStorages &&
  m.imports.length ≤ maxEntries && m.exports.length ≤ maxEntries &&
  m.elements.length ≤ maxEntries && m.data.length ≤ maxEntries &&
  m.imports.all (fun i => validName i.moduleName && validName i.name) &&
  m.exports.all (fun e => validName e.name)

/-- Whether a module can be run. -/
def isValid (m : Module) : Bool :=
  m.isModest && m.types.all validType &&
  m.tableTypes.all validTable && m.memoryTypes.all (validLimits maxPages) &&
  m.globals.all (fun g => m.isConstant g.type.value g.init) &&
  m.exports.all (fun e => m.validTarget e.target) &&
  (m.exports.map (·.name)).Nodup &&
  m.validStart && m.elements.all m.validElements && m.data.all m.validData &&
  m.funcs.all m.validFunc

end Module

end LiveTrace.Wasm
