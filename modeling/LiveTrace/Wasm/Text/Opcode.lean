import LiveTrace.Wasm.Instruction

/-
  The names of instructions. Those that only compute are listed with their names; the rest
  differ in what may follow the name, which is called the shape of an instruction.
-/
namespace LiveTrace.Wasm.Text

def intUnaryNames : List (String × IntUnary) :=
  [("clz", .clz), ("ctz", .ctz), ("popcnt", .popcnt), ("extend8_s", .extend8),
   ("extend16_s", .extend16)]

def intBinaryNames : List (String × IntBinary) :=
  [("add", .add), ("sub", .sub), ("mul", .mul), ("div_s", .divS), ("div_u", .divU),
   ("rem_s", .remS), ("rem_u", .remU), ("and", .and), ("or", .or), ("xor", .xor),
   ("shl", .shl), ("shr_s", .shrS), ("shr_u", .shrU), ("rotl", .rotl), ("rotr", .rotr)]

def intCompareNames : List (String × IntCompare) :=
  [("eq", .eq), ("ne", .ne), ("lt_s", .ltS), ("lt_u", .ltU), ("gt_s", .gtS), ("gt_u", .gtU),
   ("le_s", .leS), ("le_u", .leU), ("ge_s", .geS), ("ge_u", .geU)]

def floatUnaryNames : List (String × FloatUnary) :=
  [("abs", .abs), ("neg", .neg), ("ceil", .ceil), ("floor", .floor), ("trunc", .trunc),
   ("nearest", .nearest), ("sqrt", .sqrt)]

def floatBinaryNames : List (String × FloatBinary) :=
  [("add", .add), ("sub", .sub), ("mul", .mul), ("div", .div), ("min", .min), ("max", .max),
   ("copysign", .copysign)]

def floatCompareNames : List (String × FloatCompare) :=
  [("eq", .eq), ("ne", .ne), ("lt", .lt), ("gt", .gt), ("le", .le), ("ge", .ge)]

/-- The operations on integers of one width. -/
def intNames (w : Width) : List (String × Numeric) :=
  intUnaryNames.map (fun x => (x.1, .intUnary w x.2)) ++
  intBinaryNames.map (fun x => (x.1, .intBinary w x.2)) ++
  intCompareNames.map (fun x => (x.1, .intCompare w x.2)) ++
  [("eqz", .intIsZero w), ("trunc_f32_s", .truncate w .w32 true false),
   ("trunc_f32_u", .truncate w .w32 false false), ("trunc_f64_s", .truncate w .w64 true false),
   ("trunc_f64_u", .truncate w .w64 false false),
   ("trunc_sat_f32_s", .truncate w .w32 true true),
   ("trunc_sat_f32_u", .truncate w .w32 false true),
   ("trunc_sat_f64_s", .truncate w .w64 true true),
   ("trunc_sat_f64_u", .truncate w .w64 false true)]

/-- The operations on floating-point numbers of one width. -/
def floatNames (w : Width) : List (String × Numeric) :=
  floatUnaryNames.map (fun x => (x.1, .floatUnary w x.2)) ++
  floatBinaryNames.map (fun x => (x.1, .floatBinary w x.2)) ++
  floatCompareNames.map (fun x => (x.1, .floatCompare w x.2)) ++
  [("convert_i32_s", .convert w .w32 true), ("convert_i32_u", .convert w .w32 false),
   ("convert_i64_s", .convert w .w64 true), ("convert_i64_u", .convert w .w64 false)]

/-- All operations that only compute, by their full names. -/
def numericNames : List (String × Numeric) :=
  (intNames .w32).map (fun x => ("i32." ++ x.1, x.2)) ++
  (intNames .w64).map (fun x => ("i64." ++ x.1, x.2)) ++
  (floatNames .w32).map (fun x => ("f32." ++ x.1, x.2)) ++
  (floatNames .w64).map (fun x => ("f64." ++ x.1, x.2)) ++
  [("i64.extend32_s", .intUnary .w64 .extend32), ("i32.wrap_i64", .wrap),
   ("i64.extend_i32_s", .extend true), ("i64.extend_i32_u", .extend false),
   ("f32.demote_f64", .demote), ("f64.promote_f32", .promote),
   ("i32.reinterpret_f32", .toBits .w32), ("i64.reinterpret_f64", .toBits .w64),
   ("f32.reinterpret_i32", .fromBits .w32), ("f64.reinterpret_i64", .fromBits .w64)]

def numeric? (name : String) : Option Numeric := numericNames.lookup name

/-- What is read out of memory, by the names of the instructions. -/
def loadNames : List (String × Access) :=
  ["i32.load", "i64.load", "f32.load", "f64.load", "i32.load8_s", "i32.load8_u", "i32.load16_s",
   "i32.load16_u", "i64.load8_s", "i64.load8_u", "i64.load16_s", "i64.load16_u", "i64.load32_s",
   "i64.load32_u"].zip Access.loads

/-- What is written into memory, by the names of the instructions. -/
def storeNames : List (String × Access) :=
  ["i32.store", "i64.store", "f32.store", "f64.store", "i32.store8", "i32.store16", "i64.store8",
   "i64.store16", "i64.store32"].zip Access.stores

/-- What may follow the name of an instruction. -/
inductive Shape where
  | nothing
  /-- One index. -/
  | index
  /-- One index or none. -/
  | maybeIndex
  /-- Any number of indices. -/
  | indices
  /-- One word. -/
  | word
  /-- An index, then an offset and an alignment, each of them or not. -/
  | memory
  /-- Result types. -/
  | results
  /-- A type, and an index in front of it or behind it, or none. -/
  | indirect
  /-- A label or none, then a type. -/
  | block
  /-- A label or none. -/
  | label
  deriving DecidableEq, Repr

/-- The shapes of the instructions that take something. -/
def shapes : List (String × Shape) :=
  [("br", .index), ("br_if", .index), ("br_table", .indices), ("call", .index),
   ("call_indirect", .indirect), ("select", .results),
   ("local.get", .index), ("local.set", .index), ("local.tee", .index),
   ("global.get", .index), ("global.set", .index), ("ref.func", .index), ("ref.null", .word),
   ("i32.const", .word), ("i64.const", .word), ("f32.const", .word), ("f64.const", .word),
   ("memory.size", .maybeIndex), ("memory.grow", .maybeIndex),
   ("block", .block), ("loop", .block), ("if", .block), ("else", .label), ("end", .label)]

def shapeOf (name : String) : Shape :=
  match shapes.lookup name with
  | some s => s
  | none =>
    if (loadNames.lookup name).isSome || (storeNames.lookup name).isSome then .memory
    else .nothing

end LiveTrace.Wasm.Text
