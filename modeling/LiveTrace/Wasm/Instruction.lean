import LiveTrace.Wasm.Numeric

/-
  Instructions with every index resolved. Blocks hold their instructions, and a branch counts
  the blocks around it from the inside out.
-/
namespace LiveTrace.Wasm

/-- How memory is read or written: as a value of `type`, `bytes` bytes of it, and with their
sign when it is read into something longer. -/
structure Access where
  type : ValType
  bytes : Nat
  signed : Bool
  deriving DecidableEq, Repr

namespace Access

/-- Everything that can be read out of memory. -/
def loads : List Access :=
  [⟨.i32, 4, false⟩, ⟨.i64, 8, false⟩, ⟨.f32, 4, false⟩, ⟨.f64, 8, false⟩,
   ⟨.i32, 1, true⟩, ⟨.i32, 1, false⟩, ⟨.i32, 2, true⟩, ⟨.i32, 2, false⟩,
   ⟨.i64, 1, true⟩, ⟨.i64, 1, false⟩, ⟨.i64, 2, true⟩, ⟨.i64, 2, false⟩,
   ⟨.i64, 4, true⟩, ⟨.i64, 4, false⟩]

/-- Everything that can be written into memory. -/
def stores : List Access :=
  [⟨.i32, 4, false⟩, ⟨.i64, 8, false⟩, ⟨.f32, 4, false⟩, ⟨.f64, 8, false⟩,
   ⟨.i32, 1, false⟩, ⟨.i32, 2, false⟩, ⟨.i64, 1, false⟩, ⟨.i64, 2, false⟩, ⟨.i64, 4, false⟩]

end Access

/-- Which memory an instruction is about, and how far behind the address it is given. -/
structure Target where
  memory : Nat
  offset : Nat
  deriving DecidableEq, Repr

inductive Instr where
  | unreachable
  | nop
  | drop
  /-- One of two values; their type is written down when they are references. -/
  | select (type : Option ValType)
  | const (v : Value)
  | numeric (op : Numeric)
  | localGet (i : Nat)
  | localSet (i : Nat)
  | localTee (i : Nat)
  | globalGet (i : Nat)
  | globalSet (i : Nat)
  | load (access : Access) (target : Target)
  | store (access : Access) (target : Target)
  | memorySize (memory : Nat)
  | memoryGrow (memory : Nat)
  | refNull (type : ValType)
  | refFunc (f : Nat)
  | refIsNull
  | block (type : FuncType) (body : List Instr)
  | loop (type : FuncType) (body : List Instr)
  | branch (type : FuncType) (yes no : List Instr)
  | br (label : Nat)
  | brIf (label : Nat)
  | brTable (labels : List Nat) (default : Nat)
  | ret
  | call (f : Nat)
  | callIndirect (table : Nat) (type : FuncType)
  deriving Inhabited

/-- A function as it is written: its type, the types of its further locals, and its body. -/
structure Func where
  type : FuncType
  locals : List ValType
  body : List Instr

/-- Where an import comes from and what it has to be. -/
structure Import where
  moduleName : String
  name : String
  type : ExternType

/-- What an export names, by index. -/
inductive ExportTarget where
  | func (i : Nat)
  | table (i : Nat)
  | memory (i : Nat)
  | global (i : Nat)
  deriving DecidableEq, Repr

structure Export where
  name : String
  target : ExportTarget
  deriving DecidableEq, Repr

structure Global where
  type : GlobalType
  init : List Instr

/-- When and where a segment is put. -/
inductive SegmentMode where
  /-- Not by itself. -/
  | passive
  /-- Into the table or memory with this index, from the given place on. -/
  | active (index : Nat) (offset : List Instr)

/-- Functions for a table, each given by one instruction. -/
structure Elements where
  mode : SegmentMode
  type : ValType
  items : List (List Instr)

/-- Bytes for a memory. -/
structure Data where
  mode : SegmentMode
  bytes : List UInt8

/-- A module: the types it lists, its imports, then everything it defines itself, in index
order. -/
structure Module where
  types : List FuncType := []
  imports : List Import := []
  funcs : List Func := []
  tables : List TableType := []
  memories : List Limits := []
  globals : List Global := []
  exports : List Export := []
  start : Option Nat := none
  elements : List Elements := []
  data : List Data := []

namespace Module

/-- The types of all functions, imported ones first. -/
def funcTypes (m : Module) : List FuncType :=
  m.imports.filterMap (fun i => match i.type with
    | .func t => some t
    | _ => none) ++ m.funcs.map (·.type)

def tableTypes (m : Module) : List TableType :=
  m.imports.filterMap (fun i => match i.type with
    | .table t => some t
    | _ => none) ++ m.tables

def memoryTypes (m : Module) : List Limits :=
  m.imports.filterMap (fun i => match i.type with
    | .memory t => some t
    | _ => none) ++ m.memories

/-- The types of the imported globals. -/
def importedGlobals (m : Module) : List GlobalType :=
  m.imports.filterMap fun i => match i.type with
    | .global t => some t
    | _ => none

def globalTypes (m : Module) : List GlobalType := m.importedGlobals ++ m.globals.map (·.type)

end Module

end LiveTrace.Wasm
