import LiveTrace.Wasm.Text.Layout
import LiveTrace.Wasm.Text.Literal

/-
  Names and the types that a text uses: by index, written out, or both. A type that is used
  without an index and listed nowhere gets an index behind those of all listed types.
-/
namespace LiveTrace.Wasm.Text

/-- The names of everything that has an index. -/
structure Names where
  types : List (Option (List Char)) := []
  funcs : List (Option (List Char)) := []
  tables : List (Option (List Char)) := []
  memories : List (Option (List Char)) := []
  globals : List (Option (List Char)) := []
  elements : List (Option (List Char)) := []
  data : List (Option (List Char)) := []
  locals : List (Option (List Char)) := []
  /-- The function types in index order, at first the listed ones. -/
  funcTypes : List FuncType := []

/-- The index that a word stands for. -/
def indexOf? (names : List (Option (List Char))) (n : Node) : Option Nat :=
  match n with
  | .word ('$' :: cs) => names.findIdx? (· == some ('$' :: cs))
  | .word cs => index? cs
  | _ => none

/-- The type of references that a name in `(ref null …)` stands for. -/
def heapType? (cs : List Char) : Option ValType :=
  if cs == "func".toList then some .funcref
  else if cs == "extern".toList then some .externref
  else none

/-- The type that a node stands for. References have a short and a long spelling, and those to
functions also an old one. -/
def valType? (n : Node) : Option ValType :=
  match n with
  | .word cs =>
    if cs == "anyfunc".toList then some .funcref else ValType.ofName? (String.ofList cs)
  | .list [.word a, .word b, .word c] =>
    if a == "ref".toList && b == "null".toList then heapType? c else none
  | _ => none

/-- The type of references that a node stands for. -/
def refType? (n : Node) : Option ValType := (valType? n).filter ValType.isRef

/-- Whether one name comes twice. -/
def hasTwice (names : List (Option (List Char))) : Bool :=
  !(names.filterMap id).Nodup

/-- The types of parameters or locals with their names. A name comes with exactly one type. -/
def declarations? (items : List Node) : Option (List (Option (List Char) × ValType)) :=
  match items with
  | [.word ('$' :: c :: cs), t] => (valType? t).map fun t => [(some ('$' :: c :: cs), t)]
  | items => items.mapM fun n => (valType? n).map (none, ·)

/-- A use of a function type, as it is written. -/
structure TypeUse where
  index : Option Nat := none
  /-- Whether parameters or results are written out, even if there are none of them. -/
  written : Bool := false
  params : List (Option (List Char) × ValType) := []
  results : List ValType := []

namespace TypeUse

/-- One part of a type use: at first maybe an index, then parameters, then results. -/
def add (names : Names) (u : TypeUse) (n : Node) : Option TypeUse :=
  match n with
  | .list (.word cs :: items) =>
    let head := String.ofList cs
    if head == "type" then
      match items with
      | [i] =>
        if u.index.isNone && !u.written then
          (indexOf? names.types i).map fun i => { u with index := some i }
        else none
      | _ => none
    else if head == "param" then
      if u.results.isEmpty then
        (declarations? items).map fun ps =>
          { u with written := true, params := u.params ++ ps }
      else none
    else if head == "result" then
      (items.mapM valType?).map fun ts => { u with written := true, results := u.results ++ ts }
    else none
  | _ => none

/-- The type that is written out. -/
def funcType (u : TypeUse) : FuncType := ⟨u.params.map (·.2), u.results⟩

/-- The type in question. Types given both ways have to be the same. -/
def type? (names : Names) (u : TypeUse) : Option FuncType :=
  match u.index with
  | none => some u.funcType
  | some i =>
    match names.funcTypes[i]? with
    | some t => if !u.written || t = u.funcType then some t else none
    | none => none

end TypeUse

/-- The use that some nodes are. -/
def typeUse? (names : Names) (ns : List Node) : Option TypeUse :=
  ns.foldlM (TypeUse.add names) {}

/-- The type of a block, whose parameters have no names. -/
def blockType? (names : Names) (ns : List Node) : Option FuncType :=
  match typeUse? names ns with
  | some u => if u.params.all (·.1.isNone) then u.type? names else none
  | none => none

/-- The type that has to be listed for a use. -/
def listedType? (names : Names) (ns : List Node) : Option FuncType :=
  (typeUse? names ns).bind fun u => if u.index.isNone then some u.funcType else none

/-- The type that has to be listed for an instruction. Blocks that take nothing and give at most
one value need none. -/
def Plain.listedType? (names : Names) (p : Plain) : Option FuncType :=
  match shapeOf p.name with
  | .block =>
    (Text.listedType? names (p.arguments.filter (!·.isName))).bind fun t =>
      if t.params.isEmpty && t.results.length ≤ 1 then none else some t
  | .indirect => Text.listedType? names (p.arguments.filter (!·.isIndex))
  | _ => none

/-- The types that have to be listed for some code, in order. -/
def codeTypes (names : Names) (ns : List Node) : List FuncType :=
  ((layOut .none [] ns).getD []).filterMap (Plain.listedType? names)

/-- The types with some more behind them, each of which comes once. -/
def withTypes (listed more : List FuncType) : List FuncType :=
  more.foldl (fun listed t => if listed.contains t then listed else listed ++ [t]) listed

end LiveTrace.Wasm.Text
