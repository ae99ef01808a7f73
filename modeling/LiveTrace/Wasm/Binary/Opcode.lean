import LiveTrace.Wasm.Instruction

/-
  The numbers of instructions. Those that only compute have consecutive numbers from 0x45 on,
  those that read and write memory from 0x28 on; the conversions that never fail have numbers of
  their own behind the byte 0xFC.
-/
namespace LiveTrace.Wasm.Binary

def intCompares (w : Width) : List Numeric :=
  .intIsZero w ::
  [.eq, .ne, .ltS, .ltU, .gtS, .gtU, .leS, .leU, .geS, .geU].map (Numeric.intCompare w)

def floatCompares (w : Width) : List Numeric :=
  [.eq, .ne, .lt, .gt, .le, .ge].map (Numeric.floatCompare w)

def intOperations (w : Width) : List Numeric :=
  [.clz, .ctz, .popcnt].map (Numeric.intUnary w) ++
  [.add, .sub, .mul, .divS, .divU, .remS, .remU, .and, .or, .xor, .shl, .shrS, .shrU, .rotl,
   .rotr].map (Numeric.intBinary w)

def floatOperations (w : Width) : List Numeric :=
  [.abs, .neg, .ceil, .floor, .trunc, .nearest, .sqrt].map (Numeric.floatUnary w) ++
  [.add, .sub, .mul, .div, .min, .max, .copysign].map (Numeric.floatBinary w)

/-- The conversions to integers of one width: from thirty-two bits and from sixty-four, signed
and unsigned. -/
def truncations (w : Width) (saturating : Bool) : List Numeric :=
  [.truncate w .w32 true saturating, .truncate w .w32 false saturating,
   .truncate w .w64 true saturating, .truncate w .w64 false saturating]

/-- The conversions from integers to one width. -/
def conversions (w : Width) : List Numeric :=
  [.convert w .w32 true, .convert w .w32 false, .convert w .w64 true, .convert w .w64 false]

/-- The operations that only compute, in the order of their numbers. -/
def numerics : List Numeric :=
  intCompares .w32 ++ intCompares .w64 ++ floatCompares .w32 ++ floatCompares .w64 ++
  intOperations .w32 ++ intOperations .w64 ++ floatOperations .w32 ++ floatOperations .w64 ++
  [.wrap] ++ truncations .w32 false ++ [.extend true, .extend false] ++ truncations .w64 false ++
  conversions .w32 ++ [.demote] ++ conversions .w64 ++ [.promote] ++
  [.toBits .w32, .toBits .w64, .fromBits .w32, .fromBits .w64] ++
  [.intUnary .w32 .extend8, .intUnary .w32 .extend16, .intUnary .w64 .extend8,
   .intUnary .w64 .extend16, .intUnary .w64 .extend32]

/-- The operation with the given number. -/
def numeric? (opcode : Nat) : Option Numeric :=
  if 0x45 ≤ opcode then numerics[opcode - 0x45]? else none

/-- The conversion that never fails with the given number. -/
def saturating? (n : Nat) : Option Numeric := (truncations .w32 true ++ truncations .w64 true)[n]?

/-- The instruction that reads or writes memory, with the given number. -/
def access? (opcode : Nat) : Option ((Target → Instr) × Access) :=
  if opcode < 0x28 then none
  else if opcode < 0x36 then Access.loads[opcode - 0x28]?.map fun a => (.load a, a)
  else Access.stores[opcode - 0x36]?.map fun a => (.store a, a)

end LiveTrace.Wasm.Binary
