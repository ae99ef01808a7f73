import LiveTrace.Number.Power
import LiveTrace.Wasm.Nesting
import LiveTrace.Wasm.Text.TypeUse

/-
  The instructions of a function out of its text: laid out in a row, nested, and with indices
  for names.
-/
namespace LiveTrace.Wasm.Text

/-- The offset, or zero when there is none, and the alignment if it is given. -/
def memoryArguments? (ns : List Node) : Option (Nat × Option Nat) :=
  let value? (key : String) (n : Node) : Option Nat :=
    match n with
    | .word cs => if key.toList.isPrefixOf cs then index? (cs.drop key.length) else none
    | _ => none
  let align? (n : Node) : Option Nat :=
    match value? "align=" n with
    | some a => if 0 < a && Number.pow2 (Nat.log2 a) = a then some a else none
    | none => none
  match ns with
  | [] => some (0, none)
  | [a] =>
    match value? "offset=" a with
    | some o => some (o, none)
    | none => (align? a).map fun a => (0, some a)
  | [a, b] =>
    match value? "offset=" a, align? b with
    | some o, some a => some (o, some a)
    | _, _ => none
  | _ => none

/-- The index in front of other arguments, or zero when there is none, and the others. -/
def leadingIndex (names : List (Option (List Char))) : List Node → Option Nat × List Node
  | [] => (some 0, [])
  | n :: rest => if n.isIndex then (indexOf? names n, rest) else (some 0, n :: rest)

/-- The memory instruction with the given arguments. An alignment may not be larger than what is
read or written. -/
def memoryInstr? (names : Names) (make : Access → Target → Instr) (access : Access)
    (arguments : List Node) : Option Instr :=
  let (memory, rest) := leadingIndex names.memories arguments
  match memory, memoryArguments? rest with
  | some m, some (offset, align) =>
    if align.getD 1 ≤ access.bytes then some (make access ⟨m, offset⟩) else none
  | _, _ => none

/-- A constant out of its name and its word. -/
def constant? (name : String) (cs : List Char) : Option Value :=
  if name == "i32.const" then (integer? 32 cs).map Width.w32.word
  else if name == "i64.const" then (integer? 64 cs).map Width.w64.word
  else if name == "f32.const" then (float? Number.binary32 cs).map Width.w32.ofBits
  else if name == "f64.const" then (float? Number.binary64 cs).map Width.w64.ofBits
  else none

/-- The label that a word stands for, counted from the inside. -/
def label? (labels : List (Option (List Char))) (n : Node) : Option Nat := indexOf? labels n

/-- The instruction with one index. -/
def indexInstr? (names : Names) (labels : List (Option (List Char))) (name : String) (n : Node) :
    Option Instr :=
  match name with
  | "br" => (label? labels n).map .br
  | "br_if" => (label? labels n).map .brIf
  | "call" => (indexOf? names.funcs n).map .call
  | "local.get" => (indexOf? names.locals n).map .localGet
  | "local.set" => (indexOf? names.locals n).map .localSet
  | "local.tee" => (indexOf? names.locals n).map .localTee
  | "global.get" => (indexOf? names.globals n).map .globalGet
  | "global.set" => (indexOf? names.globals n).map .globalSet
  | "ref.func" => (indexOf? names.funcs n).map .refFunc
  | _ => none

/-- The instruction without arguments. -/
def bareInstr? (name : String) : Option Instr :=
  match name with
  | "unreachable" => some .unreachable
  | "nop" => some .nop
  | "drop" => some .drop
  | "return" => some .ret
  | "ref.is_null" => some .refIsNull
  | name => (numeric? name).map .numeric

/-- The instruction that may name a memory. -/
def sizeInstr? (names : Names) (name : String) (arguments : List Node) : Option Instr :=
  let memory := match arguments with
    | n :: _ => indexOf? names.memories n
    | [] => some 0
  match name with
  | "memory.size" => memory.map .memorySize
  | "memory.grow" => memory.map .memoryGrow
  | _ => none

/-- The indirect call with the given table and type. -/
def indirectInstr? (names : Names) (arguments : List Node) : Option Instr :=
  let table := match arguments.find? Node.isIndex with
    | some n => indexOf? names.tables n
    | none => some 0
  match table, blockType? names (arguments.filter (!·.isIndex)) with
  | some t, some type => some (.callIndirect t type)
  | _, _ => none

/-- The selection with the given result types: none, or one. -/
def selectInstr? (arguments : List Node) : Option Instr :=
  match typeUse? {} arguments with
  | some ⟨none, false, [], []⟩ => some (.select none)
  | some ⟨none, true, [], [t]⟩ => some (.select (some t))
  | _ => none

/-- The instruction that a plain one is, unless it starts or ends a block. -/
def Plain.instr? (names : Names) (labels : List (Option (List Char))) (p : Plain) :
    Option Instr :=
  match shapeOf p.name, p.arguments with
  | .nothing, [] => bareInstr? p.name
  | .index, [n] => indexInstr? names labels p.name n
  | .indices, ns =>
    match ns.mapM (label? labels), ns.isEmpty with
    | some ls, false => some (.brTable ls.dropLast (ls.getLastD 0))
    | _, _ => none
  | .word, [.word cs] =>
    if p.name == "ref.null" then (heapType? cs).map .refNull else (constant? p.name cs).map .const
  | .maybeIndex, ns => sizeInstr? names p.name ns
  | .memory, ns =>
    match loadNames.lookup p.name, storeNames.lookup p.name with
    | some access, _ => memoryInstr? names .load access ns
    | _, some access => memoryInstr? names .store access ns
    | _, _ => none
  | .results, ns => selectInstr? ns
  | .indirect, ns => indirectInstr? names ns
  | _, _ => none

/-- The code so far: its instructions, and the labels of the blocks that are open, the innermost
first. -/
structure Code where
  nesting : Nesting := {}
  labels : List (Option (List Char)) := []

namespace Code

/-- A block starts, with a label or none in front of its type. -/
def start? (names : Names) (c : Code) (kind : BlockKind) (arguments : List Node) : Option Code :=
  let (label, type) := match arguments with
    | .word cs :: rest => (some cs, rest)
    | rest => (none, rest)
  (blockType? names type).map fun t => ⟨c.nesting.start kind t, label :: c.labels⟩

/-- Whether a label that is repeated is that of the innermost block. -/
def repeatsLabel (c : Code) (arguments : List Node) : Bool :=
  match arguments with
  | [] => true
  | .word cs :: _ => c.labels.head? == some (some cs)
  | _ => false

/-- One more instruction. -/
def step (names : Names) (c : Code) (p : Plain) : Option Code :=
  match p.name with
  | "block" => c.start? names .block p.arguments
  | "loop" => c.start? names .loop p.arguments
  | "if" => c.start? names .ifThen p.arguments
  | "else" =>
    if c.repeatsLabel p.arguments then
      c.nesting.startElse?.map fun nesting => { c with nesting := nesting }
    else none
  | "end" =>
    if c.repeatsLabel p.arguments then
      c.nesting.close?.map fun nesting => ⟨nesting, c.labels.tail⟩
    else none
  | _ =>
    (p.instr? names (c.labels ++ [none])).map fun i => { c with nesting := c.nesting.add i }

end Code

/-- The instructions that some nodes stand for. -/
def body? (names : Names) (ns : List Node) : Option (List Instr) :=
  ((layOut .none [] ns).bind (·.foldlM (Code.step names) {})).bind (·.nesting.finish?)

end LiveTrace.Wasm.Text
