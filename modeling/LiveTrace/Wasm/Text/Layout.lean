import LiveTrace.Wasm.Text.Opcode
import LiveTrace.Wasm.Text.Token

/-
  The instructions of a text laid out in a row: a folded instruction goes behind its operands, a
  folded block becomes its start, its contents and its end.
-/
namespace LiveTrace.Wasm.Text

/-- Whether a word can be an index: a name, or a number with a plus sign or without one. -/
def isIndexWord (cs : List Char) : Bool :=
  match cs with
  | '$' :: _ :: _ => true
  | '+' :: c :: _ => c.isDigit
  | c :: _ => c.isDigit
  | [] => false

/-- Whether a word is a name. -/
def isName (cs : List Char) : Bool :=
  match cs with
  | '$' :: _ :: _ => true
  | _ => false

namespace Node

/-- The word that a list begins with. -/
def headWord? : Node → Option (List Char)
  | .list (.word cs :: _) => some cs
  | _ => none

def isIndex : Node → Bool
  | .word cs => isIndexWord cs
  | _ => false

def isName : Node → Bool
  | .word cs => Text.isName cs
  | _ => false

/-- Whether a node is a part of a type. -/
def isTypePart (n : Node) : Bool :=
  match n.headWord? with
  | some w => w == "type".toList || w == "param".toList || w == "result".toList
  | none => false

/-- Whether a node is an offset or an alignment. -/
def isMemoryPart : Node → Bool
  | .word cs => "offset=".toList.isPrefixOf cs || "align=".toList.isPrefixOf cs
  | _ => false

def isWord : Node → Bool
  | .word _ => true
  | _ => false

end Node

/-- An instruction with what follows its name, in order. -/
structure Plain where
  name : String
  arguments : List Node := []

namespace Plain

/-- Whether a node belongs to the instruction and is not an instruction itself. -/
def accepts (p : Plain) (n : Node) : Bool :=
  match shapeOf p.name with
  | .nothing => false
  | .index | .maybeIndex => p.arguments.isEmpty && n.isIndex
  | .indices => n.isIndex
  | .word => p.arguments.isEmpty && n.isWord
  | .memory => (p.arguments.isEmpty && n.isIndex) || n.isMemoryPart
  | .results => n.headWord? == some "result".toList
  | .indirect =>
    if n.isIndex then !p.arguments.any Node.isIndex
    -- an index behind the type ends the arguments
    else n.isTypePart && !(p.arguments.drop 1).any Node.isIndex
  | .block => (p.arguments.isEmpty && n.isName) || n.isTypePart
  | .label => p.arguments.isEmpty && n.isName

def add (p : Plain) (n : Node) : Plain := { p with arguments := p.arguments ++ [n] }

end Plain

/-- An instruction whose last argument has not been seen yet. -/
inductive Pending where
  | none
  /-- It stands where it is. -/
  | here (p : Plain)
  /-- It goes behind everything else in its parentheses. -/
  | last (p : Plain)

namespace Pending

def accepts (p : Pending) (n : Node) : Bool :=
  match p with
  | none => false
  | here p => p.accepts n
  | last p => p.accepts n

def add (p : Pending) (n : Node) : Pending :=
  match p with
  | none => none
  | here p => here (p.add n)
  | last p => last (p.add n)

/-- What the instruction adds now, and what it adds at the end. -/
def settle (p : Pending) (tail : List Plain) : List Plain × List Plain :=
  match p with
  | none => ([], tail)
  | here p => ([p], tail)
  | last p => ([], p :: tail)

end Pending

/-- Where in a folded `if` the text stands. -/
inductive IfPart where
  /-- In the condition. Before its first instruction further arguments of the `if` may come. -/
  | condition (p : Plain) (begun : Bool)
  | afterThen
  | afterElse

def endInstr : Plain := ⟨"end", []⟩

def elseInstr : Plain := ⟨"else", []⟩

theorem sizeOf_rest (n : Node) (rest : List Node) : sizeOf rest < sizeOf (n :: rest) := by
  rw [List.cons.sizeOf_spec]
  omega

theorem sizeOf_items (items rest : List Node) :
    sizeOf items < sizeOf (Node.list items :: rest) := by
  rw [List.cons.sizeOf_spec, Node.list.sizeOf_spec]
  omega

theorem sizeOf_later (n : Node) (items rest : List Node) :
    sizeOf items < sizeOf (Node.list (n :: items) :: rest) :=
  Nat.lt_trans (sizeOf_rest n items) (sizeOf_items _ _)

mutual

/-- The instructions of some nodes in a row; `tail` goes behind them. -/
def layOut (pending : Pending) (tail : List Plain) : List Node → Option (List Plain)
  | [] =>
    let (now, tail) := pending.settle tail
    some (now ++ tail)
  | n :: rest =>
    if pending.accepts n then layOut (pending.add n) tail rest
    else
      let (now, tail) := pending.settle tail
      match n with
      | .word cs => (layOut (.here ⟨String.ofList cs, []⟩) tail rest).map (now ++ ·)
      | .list items =>
        match layOutFolded items, layOut .none tail rest with
        | some inner, some others => some (now ++ inner ++ others)
        | _, _ => none
      | .string _ => none
termination_by ns => sizeOf ns
decreasing_by all_goals first | exact sizeOf_rest _ _ | exact sizeOf_items _ _

/-- The instructions inside a pair of parentheses. -/
def layOutFolded : List Node → Option (List Plain)
  | .word cs :: rest =>
    let name := String.ofList cs
    if name == "block" || name == "loop" then layOut (.here ⟨name, []⟩) [endInstr] rest
    else if name == "if" then layOutIf (.condition ⟨name, []⟩ false) rest
    else layOut (.last ⟨name, []⟩) [] rest
  | _ => none
termination_by ns => sizeOf ns
decreasing_by all_goals exact sizeOf_rest _ _

/-- The instructions of a folded `if`: a condition in parentheses, the part `then`, and maybe the
part `else`. -/
def layOutIf (part : IfPart) : List Node → Option (List Plain)
  | [] =>
    match part with
    | .condition _ _ => none
    | .afterThen | .afterElse => some [endInstr]
  | .list (.word cs :: items) :: rest =>
    match part with
    | .condition p begun =>
      let n : Node := .list (.word cs :: items)
      if !begun && p.accepts n then layOutIf (.condition (p.add n) false) rest
      else if cs == "then".toList then
        match layOut .none [] items, layOutIf .afterThen rest with
        | some inner, some others => some (p :: inner ++ others)
        | _, _ => none
      else
        match layOutFolded (.word cs :: items), layOutIf (.condition p true) rest with
        | some inner, some others => some (inner ++ others)
        | _, _ => none
    | .afterThen =>
      if cs == "else".toList then
        match layOut .none [] items, layOutIf .afterElse rest with
        | some inner, some others => some (elseInstr :: inner ++ others)
        | _, _ => none
      else none
    | .afterElse => none
  | n :: rest =>
    match part with
    | .condition p begun =>
      if !begun && p.accepts n then layOutIf (.condition (p.add n) false) rest else none
    | _ => none
termination_by ns => sizeOf ns
decreasing_by
  all_goals first
    | exact sizeOf_rest _ _
    | exact sizeOf_later _ _ _
    | exact sizeOf_items _ _

end

end LiveTrace.Wasm.Text
