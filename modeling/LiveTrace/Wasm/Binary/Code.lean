import LiveTrace.Wasm.Binary.Opcode
import LiveTrace.Wasm.Binary.Reader
import LiveTrace.Wasm.Memory
import LiveTrace.Wasm.Nesting

/-
  Code out of bytes: one instruction after the other, each a number and what it takes, up to the
  end that belongs to no block.
-/
namespace LiveTrace.Wasm.Binary

/-- What one number stands for: an instruction, or a place where a block starts, goes on or
ends. -/
inductive Part where
  | instr (i : Instr)
  | start (kind : BlockKind) (type : FuncType)
  | otherwise
  | stop

/-- The type of a block: none, a single result, or the index of a type. -/
def blockType (types : List FuncType) : Reader FuncType := fun bs =>
  match bs with
  | 0x40 :: rest => some (⟨[], []⟩, rest)
  | bs =>
    match valType bs with
    | some (t, rest) => some (⟨[], [t]⟩, rest)
    | none =>
      match takeSigned 33 bs with
      | some (.ofNat i, rest) => types[i]?.map (·, rest)
      | _ => none

/-- What an instruction that reads or writes memory takes. The alignment is given by its logarithm
and may not be larger than what is read or written; sixty-four more tell that the memory is
named. -/
def target (access : Access) : Reader Target := do
  let flags ← index
  let named := 64 ≤ flags && flags < 128
  let memory ← if named then index else pure 0
  let align := if named then flags - 64 else flags
  let offset ← index
  if align < 64 && Number.pow2 align ≤ access.bytes then return ⟨memory, offset⟩ else fail

/-- The labels of a branch by number, and the one for every other number. -/
def branchTable : Reader Instr := do
  let labels ← listOf index
  return .brTable labels (← index)

/-- An indirect call: the index of its type, and that of its table. -/
def indirectCall (types : List FuncType) : Reader Instr := do
  let type ← given types[← index]?
  return .callIndirect (← index) type

/-- A selection with its one type. -/
def typedSelect : Reader Instr := do
  match ← listOf valType with
  | [t] => return .select (some t)
  | _ => fail

/-- A reference to nothing, of a type that one byte stands for. -/
def nullRef : Reader Instr := do
  return .refNull (← given ((valType? (← byte)).filter ValType.isRef))

/-- The instruction that memory is read or written with. -/
def memoryInstr (make : Target → Instr) (access : Access) : Reader Instr := do
  return make (← target access)

/-- The instruction with a number that stands for one alone. -/
def instr (types : List FuncType) (opcode : Nat) : Reader Instr := do
  match opcode with
  | 0x00 => return .unreachable
  | 0x01 => return .nop
  | 0x0C => return .br (← index)
  | 0x0D => return .brIf (← index)
  | 0x0E => branchTable
  | 0x0F => return .ret
  | 0x10 => return .call (← index)
  | 0x11 => indirectCall types
  | 0x1A => return .drop
  | 0x1B => return .select none
  | 0x1C => typedSelect
  | 0x20 => return .localGet (← index)
  | 0x21 => return .localSet (← index)
  | 0x22 => return .localTee (← index)
  | 0x23 => return .globalGet (← index)
  | 0x24 => return .globalSet (← index)
  | 0x3F => return .memorySize (← index)
  | 0x40 => return .memoryGrow (← index)
  | 0x41 => return .const (Width.w32.word (← word 32))
  | 0x42 => return .const (Width.w64.word (← word 64))
  | 0x43 => return .const (Width.w32.ofBits (ofLittleEndian (← take 4)))
  | 0x44 => return .const (Width.w64.ofBits (ofLittleEndian (← take 8)))
  | 0xD0 => nullRef
  | 0xD1 => return .refIsNull
  | 0xD2 => return .refFunc (← index)
  | 0xFC => return .numeric (← given (saturating? (← index)))
  | opcode =>
    match access? opcode with
    | some (make, access) => memoryInstr make access
    | none => return .numeric (← given (numeric? opcode))

/-- The next part of some code. -/
def part (types : List FuncType) : Reader Part := do
  match (← byte).toNat with
  | 0x02 => return .start .block (← blockType types)
  | 0x03 => return .start .loop (← blockType types)
  | 0x04 => return .start .ifThen (← blockType types)
  | 0x05 => return .otherwise
  | 0x0B => return .stop
  | opcode => return .instr (← instr types opcode)

/-- The instructions up to the end that belongs to no block; `fuel` bounds their number. -/
def codeAfter (types : List FuncType) : Nat → Nesting → Reader (List Instr)
  | 0, _ => fail
  | fuel + 1, s => do
    match ← part types with
    | .instr i => codeAfter types fuel (s.add i)
    | .start kind type => codeAfter types fuel (s.start kind type)
    | .otherwise =>
      match s.startElse? with
      | some s => codeAfter types fuel s
      | none => fail
    | .stop =>
      match s.close? with
      | some s => codeAfter types fuel s
      | none => return s.read.reverse

/-- Instructions and the end behind them. Every part takes a byte or more, so there are not more
parts than bytes. -/
def code (types : List FuncType) : Reader (List Instr) := fun bs =>
  codeAfter types bs.length {} bs

/-- The locals of a function: how many there are of a type, again and again. -/
def locals : Reader (List ValType) := do
  let groups ← listOf do return (← index, ← valType)
  if maxLocals < groups.foldl (fun n g => n + g.1) 0 then fail
  else return groups.flatMap fun g => List.replicate g.1 g.2

/-- The locals and the instructions of a function. -/
def body (types : List FuncType) : Reader (List ValType × List Instr) := do
  return (← locals, ← code types)

end LiveTrace.Wasm.Binary
