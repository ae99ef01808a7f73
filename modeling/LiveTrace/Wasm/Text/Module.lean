import LiveTrace.Wasm.Text.Body
import LiveTrace.Wasm.Text.Field

/-
  Modules out of their text. The names and types of all fields are known before any of them is
  built. Imports come before every definition they could be confused with, so that the order of
  the text is the order of the indices.
-/
namespace LiveTrace.Wasm.Text

/-- The number that a node is. -/
def size? : Node → Option Nat
  | .word cs => index? cs
  | _ => none

/-- The nodes of a size without the word for sizes of thirty-two bits, which may stand in front of
it. -/
def withoutIndexType (ns : List Node) : List Node :=
  match ns with
  | .word cs :: rest => if cs == "i32".toList then rest else ns
  | _ => ns

def limits? (ns : List Node) : Option Limits :=
  match withoutIndexType ns with
  | [a] => (size? a).map (⟨·, none⟩)
  | [a, b] =>
    match size? a, size? b with
    | some a, some b => some ⟨a, some b⟩
    | _, _ => none
  | _ => none

def tableType? (ns : List Node) : Option TableType :=
  match ns.getLast?.bind refType?, limits? ns.dropLast with
  | some t, some l => some ⟨l, t⟩
  | _, _ => none

def globalType? (n : Node) : Option GlobalType :=
  match listOf? "mut" n with
  | some [t] => (valType? t).map (⟨·, true⟩)
  | some _ => none
  | none => (valType? n).map (⟨·, false⟩)

/-- The type of something imported. -/
def externType? (names : Names) (kind : String) (ns : List Node) : Option ExternType :=
  match kind with
  | "func" =>
    match typeUse? names ns with
    | some u => (u.type? names).map .func
    | none => none
  | "table" => (tableType? ns).map .table
  | "memory" => (limits? ns).map .memory
  | "global" =>
    match ns with
    | [n] => (globalType? n).map .global
    | _ => none
  | _ => none

/-- The export target of a kind. -/
def exportTarget? (kind : String) (i : Nat) : Option ExportTarget :=
  match kind with
  | "func" => some (.func i)
  | "table" => some (.table i)
  | "memory" => some (.memory i)
  | "global" => some (.global i)
  | _ => none

/-- The index space of a kind. -/
def Names.ofKind (names : Names) (kind : String) : List (Option (List Char)) :=
  match kind with
  | "func" => names.funcs
  | "table" => names.tables
  | "memory" => names.memories
  | "global" => names.globals
  | _ => []

/-- A module being built, and whether it has a definition that no import may follow. -/
structure Building where
  built : Module := {}
  defined : Bool := false

namespace Building

/-- How many things of a kind there are so far. -/
def count (b : Building) (kind : String) : Nat :=
  match kind with
  | "func" => b.built.funcTypes.length
  | "table" => b.built.tableTypes.length
  | "memory" => b.built.memoryTypes.length
  | "global" => b.built.globalTypes.length
  | _ => 0

/-- The next thing of a kind is exported under some names. -/
def exportNext (b : Building) (kind : String) (exported : List String) : Option Building :=
  match exportTarget? kind (b.count kind) with
  | some target =>
    some { b with built := { b.built with
      exports := b.built.exports ++ exported.map (⟨·, target⟩) } }
  | none => none

def addImport (b : Building) (i : Import) : Option Building :=
  if b.defined then none
  else some { b with built := { b.built with imports := b.built.imports ++ [i] } }

/-- The items of a list of functions, given by their indices. -/
def funcItems? (names : Names) (ns : List Node) : Option (List (List Instr)) :=
  ns.mapM fun n => (indexOf? names.funcs n).map fun f => [.refFunc f]

/-- The items of a list of references, each an expression. -/
def exprItems? (names : Names) (ns : List Node) : Option (List (List Instr)) :=
  ns.mapM fun n => match listOf? "item" n with
    | some items => body? names items
    | none => body? names [n]

/-- The type and the items of an element segment; `bare` tells that the type may be missing. -/
def elementItems? (names : Names) (bare : Bool) (ns : List Node) :
    Option (ValType × List (List Instr)) :=
  match ns with
  | n :: rest =>
    match refType? n with
    | some t => (exprItems? names rest).map (t, ·)
    | none =>
      match n with
      | .word cs =>
        if cs == "func".toList then (funcItems? names rest).map (.funcref, ·)
        else if bare then (funcItems? names ns).map (.funcref, ·)
        else none
      | _ => none
  | [] => if bare then some (.funcref, []) else none

/-- The place where an active segment begins. -/
def offset? (names : Names) (n : Node) : Option (List Instr) :=
  match listOf? "offset" n with
  | some items => body? names items
  | none => body? names [n]

/-- The table or memory of a segment, if one is named, and the rest. -/
def segmentTarget? (word : String) (space : List (Option (List Char))) (ns : List Node) :
    Option (Option Nat × List Node) :=
  match ns with
  | [] => some (none, [])
  | n :: rest =>
    match listOf? word n with
    | some [i] => (indexOf? space i).map fun i => (some i, rest)
    | some _ => none
    | none =>
      match size? n with
      | some i => some (some i, rest)
      | none => some (none, n :: rest)

/-- An active or passive segment: its mode, and the rest. -/
def segmentMode? (names : Names) (word : String) (space : List (Option (List Char)))
    (ns : List Node) : Option (SegmentMode × List Node) :=
  match segmentTarget? word space ns with
  | some (target, .list items :: rest) =>
    (offset? names (.list items)).map fun offset => (.active (target.getD 0) offset, rest)
  | some (none, rest) => some (.passive, rest)
  | _ => none

def isActive : SegmentMode → Bool
  | .active _ _ => true
  | .passive => false

/-- The mode of an element segment, whether functions may follow without a type in front of them,
and the rest. They may when the segment is active and does not spell out its table. -/
def elementMode? (names : Names) (ns : List Node) : Option (SegmentMode × Bool × List Node) :=
  let segment := (segmentMode? names "table" names.tables ns).map fun (mode, rest) =>
    (mode, isActive mode && !(ns.head?.bind Node.headWord? == some "table".toList), rest)
  match ns with
  | .word cs :: rest => if cs == "declare".toList then some (.passive, false, rest) else segment
  | n :: _ => if (refType? n).isSome then some (.passive, false, ns) else segment
  | [] => some (.passive, false, [])

def addElements (names : Names) (b : Building) (items : List Node) : Option Building := do
  let (mode, bare, rest) ← elementMode? names (splitName items).2
  let (type, items) ← elementItems? names bare rest
  return { b with built := { b.built with
    elements := b.built.elements ++ [⟨mode, type, items⟩] } }

def addData (names : Names) (b : Building) (items : List Node) : Option Building := do
  let (mode, rest) ← segmentMode? names "memory" names.memories (splitName items).2
  let bytes ← contents? rest
  return { b with built := { b.built with data := b.built.data ++ [⟨mode, bytes⟩] } }

/-- A function from what follows its header. -/
def func? (names : Names) (ns : List Node) : Option Func := do
  let types := ns.takeWhile Node.isTypePart
  let u ← typeUse? names types
  let type ← u.type? names
  let (locals, body) ← takeLocals (ns.drop types.length)
  let params := if u.params.isEmpty then type.params.map (none, ·) else u.params
  let declared := (params ++ locals).map (·.1)
  if hasTwice declared then none
  else
    let body ← body? { names with locals := declared } body
    return ⟨type, locals.map (·.2), body⟩

def addFunc (names : Names) (b : Building) (ns : List Node) : Option Building :=
  (func? names ns).map fun f =>
    { built := { b.built with funcs := b.built.funcs ++ [f] }, defined := true }

def withTable (b : Building) (t : TableType) : Building :=
  { built := { b.built with tables := b.built.tables ++ [t] }, defined := true }

/-- The types of a table and of the elements that it is given by, and these. -/
def tableItems? (names : Names) (t : Node) (items : List Node) :
    Option (ValType × ValType × List (List Instr)) :=
  match refType? t, items with
  | some type, .list _ :: _ => (exprItems? names items).map (type, type, ·)
  | some type, _ => (funcItems? names items).map (type, .funcref, ·)
  | none, _ => none

/-- A table, given by its type or by its elements. -/
def addTable (names : Names) (b : Building) (ns : List Node) : Option Building :=
  match withoutIndexType ns with
  | [t, .list (.word cs :: items)] =>
    if cs == "elem".toList then
      (tableItems? names t items).map fun (type, itemType, found) =>
        { built := { b.built with
            tables := b.built.tables ++ [⟨⟨found.length, some found.length⟩, type⟩]
            elements := b.built.elements ++
              [⟨.active b.built.tableTypes.length [.const (.i32 0)], itemType, found⟩] }
          defined := true }
    else (tableType? ns).map b.withTable
  | _ => (tableType? ns).map b.withTable

/-- A memory, given by its size or by its contents. -/
def addMemory (b : Building) (ns : List Node) : Option Building :=
  match withoutIndexType ns with
  | [.list (.word cs :: items)] =>
    if cs == "data".toList then
      (contents? items).map fun bytes =>
        let size := (bytes.length + pageSize - 1) / pageSize
        { built := { b.built with
            memories := b.built.memories ++ [⟨size, some size⟩]
            data := b.built.data ++
              [⟨.active b.built.memoryTypes.length [.const (.i32 0)], bytes⟩] }
          defined := true }
    else none
  | ns => (limits? ns).map fun l =>
    { built := { b.built with memories := b.built.memories ++ [l] }, defined := true }

def addGlobal (names : Names) (b : Building) (ns : List Node) : Option Building :=
  match ns with
  | t :: init =>
    match globalType? t, body? names init with
    | some t, some init =>
      some { built := { b.built with globals := b.built.globals ++ [⟨t, init⟩] }
             defined := true }
    | _, _ => none
  | [] => none

/-- A function, table, memory or global. -/
def addDefinition (names : Names) (b : Building) (kind : String) (items : List Node) :
    Option Building := do
  let h ← header? items
  let b ← b.exportNext kind h.exports
  match h.source with
  | some (m, n) =>
    let type ← externType? names kind h.rest
    b.addImport ⟨m, n, type⟩
  | none =>
    match kind with
    | "func" => b.addFunc names h.rest
    | "table" => b.addTable names h.rest
    | "memory" => b.addMemory h.rest
    | "global" => b.addGlobal names h.rest
    | _ => none

def addExport (names : Names) (b : Building) (items : List Node) : Option Building :=
  match items with
  | [.string name, .list [.word kind, i]] => do
    let name ← textOf? name
    let kind := String.ofList kind
    let i ← indexOf? (names.ofKind kind) i
    let target ← exportTarget? kind i
    return { b with built := { b.built with exports := b.built.exports ++ [⟨name, target⟩] } }
  | _ => none

def addStart (names : Names) (b : Building) (items : List Node) : Option Building :=
  match items, b.built.start with
  | [i], none => (indexOf? names.funcs i).map fun f =>
    { b with built := { b.built with start := some f } }
  | _, _ => none

/-- The module with one more field. -/
def addField (names : Names) (b : Building) (f : Field) : Option Building :=
  match f.kind with
  | "type" => some b
  | "import" => do
    let i ← importField? f.items
    let type ← externType? names i.kind (splitName i.items).2
    b.addImport ⟨i.moduleName, i.name, type⟩
  | "export" => b.addExport names f.items
  | "start" => b.addStart names f.items
  | "elem" => b.addElements names f.items
  | "data" => b.addData names f.items
  | kind => b.addDefinition names kind f.items

end Building

/-- The module that the trees of a text are, valid or not. -/
def module? (trees : List Node) : Option Module := do
  let fields ← fields? trees
  let names ← names? fields
  let b ← fields.foldlM (Building.addField names) { built := { types := names.funcTypes } }
  return b.built

end LiveTrace.Wasm.Text
