/-
  The types of WebAssembly: values, functions, limits, tables, memories, globals, and when
  something exported may stand for something imported.
-/
namespace LiveTrace.Wasm

/-- Types of values. -/
inductive ValType where
  | i32 | i64 | f32 | f64 | funcref | externref
  deriving DecidableEq, Repr, Inhabited

def ValType.name : ValType → String
  | .i32 => "i32"
  | .i64 => "i64"
  | .f32 => "f32"
  | .f64 => "f64"
  | .funcref => "funcref"
  | .externref => "externref"

def ValType.all : List ValType := [.i32, .i64, .f32, .f64, .funcref, .externref]

def ValType.ofName? (name : String) : Option ValType := ValType.all.find? (·.name == name)

/-- References to functions or to things of the host. -/
def ValType.isRef : ValType → Bool
  | .funcref | .externref => true
  | _ => false

structure FuncType where
  params : List ValType
  results : List ValType
  deriving DecidableEq, Repr, Inhabited

/-- A least size and, maybe, a greatest one. -/
structure Limits where
  min : Nat
  max : Option Nat
  deriving DecidableEq, Repr, Inhabited

/-- Whether a size that is `actual.min` now and never more than `actual.max` satisfies a
request for `wanted`. -/
def Limits.satisfies (actual wanted : Limits) : Bool :=
  wanted.min ≤ actual.min &&
  match wanted.max with
  | none => true
  | some w => match actual.max with
    | none => false
    | some a => a ≤ w

structure TableType where
  limits : Limits
  element : ValType
  deriving DecidableEq, Repr, Inhabited

structure GlobalType where
  value : ValType
  mutable : Bool
  deriving DecidableEq, Repr, Inhabited

/-- The type of something imported or exported. -/
inductive ExternType where
  | func (type : FuncType)
  | table (type : TableType)
  | memory (limits : Limits)
  | global (type : GlobalType)
  deriving DecidableEq, Repr

/-- The bytes of a page of memory. -/
def pageSize : Nat := 65536

/-- The greatest number of pages of a memory. -/
def maxPages : Nat := 65536

/-- How many locals a function may have, its parameters included. -/
def maxLocals : Nat := 50000

/-- How many bytes a name may have. -/
def maxNameSize : Nat := 100000

end LiveTrace.Wasm
