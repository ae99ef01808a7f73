import LiveTrace.Hook.Signature
import LiveTrace.Wasm.Instruction
import LiveTrace.Wasm.Memory

/-
  The store: everything modules have brought into being, by address. Linking finds what a
  module imports by module and name, and instantiating adds what the module defines, fills
  tables and memories, and tells which function to start with.
-/
namespace LiveTrace.Wasm

/-- Something exported, by its address. -/
inductive Extern where
  | func (address : Nat)
  | table (address : Nat)
  | memory (address : Nat)
  | global (address : Nat)
  deriving DecidableEq, Repr

/-- A function: one of a module's own, or a hook. -/
inductive FuncInst where
  | code (instance_ : Nat) (f : Func)
  | hook (h : Hook)

def FuncInst.type : FuncInst → FuncType
  | code _ f => f.type
  | hook h => h.type

/-- A table. Places that hold no function are not kept. -/
structure Table where
  type : ValType
  size : Nat
  max : Option Nat
  entries : Std.TreeMap Nat Nat := {}

structure GlobalInst where
  type : GlobalType
  value : Value

/-- A module in the store: the addresses of all it can refer to, in index order. -/
structure Instance where
  funcs : Array Nat := #[]
  tables : Array Nat := #[]
  memories : Array Nat := #[]
  globals : Array Nat := #[]
  exports : List (String × Extern) := []

structure Store where
  funcs : Array FuncInst := #[]
  tables : Array Table := #[]
  memories : Array Memory := #[]
  globals : Array GlobalInst := #[]
  instances : Array Instance := #[]

namespace Store

/-- The type of something exported, sizes being those it has now. -/
def externType? (s : Store) : Extern → Option ExternType
  | .func a => s.funcs[a]?.map fun f => .func f.type
  | .table a => s.tables[a]?.map fun t => .table ⟨⟨t.size, t.max⟩, t.type⟩
  | .memory a => s.memories[a]?.map fun m => .memory ⟨m.pages, m.max⟩
  | .global a => s.globals[a]?.map fun g => .global g.type

/-- What an instance exports under a name. -/
def export? (s : Store) (i : Nat) (name : String) : Option Extern :=
  s.instances[i]?.bind (·.exports.lookup name)

/-- The memory an instance exports under a name. -/
def exportedMemory? (s : Store) (i : Nat) (name : String) : Option Memory :=
  match s.export? i name with
  | some (.memory a) => s.memories[a]?
  | _ => none

/-- The function an instance exports under a name, if it has the given type. -/
def exportedFunc? (s : Store) (i : Nat) (name : String) (type : FuncType) : Option Nat :=
  match s.export? i name with
  | some (.func a) => if s.funcs[a]?.map FuncInst.type = some type then some a else none
  | _ => none

/-- The store with one more function, and its address. -/
def addFunc (s : Store) (f : FuncInst) : Store × Nat :=
  ({ s with funcs := s.funcs.push f }, s.funcs.size)

def addGlobal (s : Store) (g : GlobalInst) : Store × Nat :=
  ({ s with globals := s.globals.push g }, s.globals.size)

end Store

/-- Whether something of type `actual` may be imported as `wanted`. -/
def ExternType.satisfies (actual wanted : ExternType) : Bool :=
  match actual, wanted with
  | .func a, .func w => a == w
  | .table a, .table w => a.element == w.element && a.limits.satisfies w.limits
  | .memory a, .memory w => a.satisfies w
  | .global a, .global w => a == w
  | _, _ => false

/-- What can be imported, by module and name. -/
abbrev Linker := List ((String × String) × Extern)

namespace Linker

def find? (l : Linker) (moduleName name : String) : Option Extern := l.lookup (moduleName, name)

/-- The linker with one more thing, unless its name is taken. -/
def define? (l : Linker) (moduleName name : String) (e : Extern) : Option Linker :=
  if (l.find? moduleName name).isSome then none else some (l ++ [((moduleName, name), e)])

/-- The linker with everything an instance exports, under the name of its module. -/
def register? (l : Linker) (moduleName : String) (exports : List (String × Extern)) :
    Option Linker :=
  exports.foldlM (fun l e => l.define? moduleName e.1 e.2) l

/-- What a module imports, if all of it is there and of the right type. -/
def resolve? (l : Linker) (s : Store) (m : Module) : Option (List Extern) :=
  m.imports.mapM fun i =>
    match l.find? i.moduleName i.name with
    | some e =>
      match s.externType? e with
      | some t => if t.satisfies i.type then some e else none
      | none => none
    | none => none

end Linker

/-- The value of a constant, where `i` is the instance it stands in. -/
def constantValue (s : Store) (i : Instance) : List Instr → Value
  | [.const v] => v
  | [.refNull t] => t.zero
  | [.refFunc f] => .func i.funcs[f]?
  | [.globalGet g] =>
    match i.globals[g]?.bind (s.globals[·]?) with
    | some g => g.value
    | none => .i32 0
  | _ => .i32 0

namespace Instance

/-- The instance with one more import. -/
def addImport (i : Instance) : Extern → Instance
  | .func a => { i with funcs := i.funcs.push a }
  | .table a => { i with tables := i.tables.push a }
  | .memory a => { i with memories := i.memories.push a }
  | .global a => { i with globals := i.globals.push a }

/-- What an export names. -/
def target? (i : Instance) : ExportTarget → Option Extern
  | .func k => i.funcs[k]?.map .func
  | .table k => i.tables[k]?.map .table
  | .memory k => i.memories[k]?.map .memory
  | .global k => i.globals[k]?.map .global

def exportsOf (i : Instance) (exports : List Export) : List (String × Extern) :=
  exports.filterMap fun e => (i.target? e.target).map (e.name, ·)

end Instance

/-- The store with what a module defines, and the module's instance, whose number is `n`. -/
def allocate (s : Store) (n : Nat) (m : Module) (imports : List Extern) : Store × Instance :=
  let i := imports.foldl Instance.addImport {}
  let (s, i) := m.funcs.foldl (fun (s, i) f =>
    let (s, a) := s.addFunc (.code n f)
    (s, { i with funcs := i.funcs.push a })) (s, i)
  let (s, i) := m.tables.foldl (fun (s, i) t =>
    ({ s with tables := s.tables.push ⟨t.element, t.limits.min, t.limits.max, {}⟩ },
     { i with tables := i.tables.push s.tables.size })) (s, i)
  let (s, i) := m.memories.foldl (fun (s, i) l =>
    ({ s with memories := s.memories.push ⟨l.min, l.max, {}⟩ },
     { i with memories := i.memories.push s.memories.size })) (s, i)
  let (s, i) := m.globals.foldl (fun (s, i) g =>
    let (s, a) := s.addGlobal ⟨g.type, constantValue s i g.init⟩
    (s, { i with globals := i.globals.push a })) (s, i)
  (s, { i with exports := i.exportsOf m.exports })

/-- The store with the functions of a segment in their table, if they fit. -/
def putElements (i : Instance) (s : Store) (e : Elements) : Option Store :=
  match e.mode with
  | .passive => some s
  | .active t offset =>
    match i.tables[t]? with
    | none => none
    | some a =>
      match s.tables[a]? with
      | none => none
      | some table =>
        let start := (constantValue s i offset).toNat
        if table.size < start + e.items.length then none
        else
          let entries := (e.items.zipIdx start).foldl (fun entries (item, k) =>
            match constantValue s i item with
            | .func (some f) => entries.insert k f
            | _ => entries.erase k) table.entries
          some { s with tables := s.tables.set! a { table with entries := entries } }

/-- The store with the bytes of a segment in their memory, if they fit. -/
def putData (i : Instance) (s : Store) (d : Data) : Option Store :=
  match d.mode with
  | .passive => some s
  | .active k offset =>
    match i.memories[k]? with
    | none => none
    | some a =>
      match s.memories[a]? with
      | none => none
      | some m =>
        (m.write? (constantValue s i offset).toNat d.bytes).map fun m =>
          { s with memories := s.memories.set! a m }

/-- A module that has been instantiated: the store, the number of its instance, and the function
to start with. -/
structure Instantiation where
  store : Store
  number : Nat
  start : Option Nat

/-- Brings a module into the store. Fails when an import is missing or of another type, or when a
segment does not fit. -/
def instantiate? (l : Linker) (s : Store) (m : Module) : Option Instantiation := do
  let imports ← l.resolve? s m
  let n := s.instances.size
  let (s, i) := allocate s n m imports
  let s := { s with instances := s.instances.push i }
  let s ← m.elements.foldlM (putElements i) s
  let s ← m.data.foldlM (putData i) s
  return ⟨s, n, m.start.bind (i.funcs[·]?)⟩

end LiveTrace.Wasm
