import LiveTrace.Wasm.Instruction

/-
  Instructions as they come, one after the other: blocks start, take what follows and end. This
  is how both forms of a module write its code.
-/
namespace LiveTrace.Wasm

/-- The ways a block is open. -/
inductive BlockKind where
  | block | loop | ifThen
  /-- An `if` in its second part; the first one is complete. -/
  | ifElse (yes : List Instr)

/-- A block that has started and not ended: its type, and what stands before it (last instruction
first). -/
structure OpenBlock where
  kind : BlockKind
  type : FuncType
  before : List Instr

/-- The instruction that a block with the given contents is. -/
def OpenBlock.close (b : OpenBlock) (body : List Instr) : Instr :=
  match b.kind with
  | .block => .block b.type body
  | .loop => .loop b.type body
  | .ifThen => .branch b.type body []
  | .ifElse yes => .branch b.type yes body

/-- The instructions read so far (last one first), and the blocks around them, the innermost
first. -/
structure Nesting where
  read : List Instr := []
  blocks : List OpenBlock := []

namespace Nesting

/-- One more instruction. -/
def add (s : Nesting) (i : Instr) : Nesting := { s with read := i :: s.read }

/-- A block starts. -/
def start (s : Nesting) (kind : BlockKind) (type : FuncType) : Nesting :=
  ⟨[], ⟨kind, type, s.read⟩ :: s.blocks⟩

/-- The second part of the innermost block starts, if that is an `if` in its first one. -/
def startElse? (s : Nesting) : Option Nesting :=
  match s.blocks with
  | ⟨.ifThen, type, before⟩ :: rest => some ⟨[], ⟨.ifElse s.read.reverse, type, before⟩ :: rest⟩
  | _ => none

/-- The innermost block ends, if there is one. -/
def close? (s : Nesting) : Option Nesting :=
  match s.blocks with
  | b :: rest => some ⟨b.close s.read.reverse :: b.before, rest⟩
  | [] => none

/-- All instructions, if every block has ended. -/
def finish? (s : Nesting) : Option (List Instr) :=
  if s.blocks.isEmpty then some s.read.reverse else none

end Nesting

end LiveTrace.Wasm
