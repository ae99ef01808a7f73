import LiveTrace.Wasm.Text.Contents
import LiveTrace.Wasm.Text.TypeUse

/-
  The fields of a module's text, the names they give, and the types they use. What a field means
  depends on the names and types of all of them.
-/
namespace LiveTrace.Wasm.Text

/-- The text a string stands for. -/
def textOf? (bytes : List UInt8) : Option String :=
  match Utf8.decode bytes with
  | .ok cs => some (String.ofList cs)
  | .error _ => none

/-- A name in front of other nodes. -/
def splitName (items : List Node) : Option (List Char) × List Node :=
  match items with
  | .word ('$' :: c :: cs) :: rest => (some ('$' :: c :: cs), rest)
  | items => (none, items)

/-- The front of a definition: its name, the names it is exported under, and where it is imported
from if it is. -/
structure Header where
  name : Option (List Char)
  exports : List String := []
  source : Option (String × String) := none
  rest : List Node

/-- Takes exports and then maybe an import off the front. -/
def takeInline (h : Header) : List Node → Option Header
  | .list [.word cs, .string name] :: rest =>
    if cs == "export".toList then
      match textOf? name with
      | some name => takeInline { h with exports := h.exports ++ [name] } rest
      | none => none
    else some { h with rest := .list [.word cs, .string name] :: rest }
  | .list [.word cs, .string m, .string n] :: rest =>
    if cs == "import".toList then
      match textOf? m, textOf? n with
      | some m, some n => some { h with source := some (m, n), rest := rest }
      | _, _ => none
    else some { h with rest := .list [.word cs, .string m, .string n] :: rest }
  | rest => some { h with rest := rest }

def header? (items : List Node) : Option Header :=
  let (name, rest) := splitName items
  takeInline { name, rest := [] } rest

/-- A field: the word it begins with, and the rest. -/
structure Field where
  kind : String
  items : List Node

def field? : Node → Option Field
  | .list (.word cs :: items) => some ⟨String.ofList cs, items⟩
  | _ => none

/-- The bytes of a binary module that a text gives as strings. -/
def binary? (trees : List Node) : Option (List UInt8) :=
  match trees with
  | [.list (.word cs :: items)] =>
    match (splitName items).2 with
    | .word kind :: strings =>
      if cs == "module".toList && kind == "binary".toList then strings? strings else none
    | _ => none
  | _ => none

/-- The fields of a text: those of its one module, or all there are when the word is left out. -/
def fields? (trees : List Node) : Option (List Field) :=
  match trees with
  | [] => none
  | [.list (.word cs :: items)] =>
    if cs == "module".toList then (splitName items).2.mapM field? else trees.mapM field?
  | trees => trees.mapM field?

/-- A list with the given first word: what follows it. -/
def listOf? (word : String) : Node → Option (List Node)
  | .list (.word cs :: items) => if cs == word.toList then some items else none
  | _ => none

/-- A type field: its name and its type, which is written out. -/
def typeField? (items : List Node) : Option (Option (List Char) × FuncType) :=
  let (name, rest) := splitName items
  match rest with
  | [n] =>
    match (listOf? "func" n).bind (typeUse? {}) with
    | some u => if u.index.isNone then some (name, u.funcType) else none
    | none => none
  | _ => none

/-- What an import field imports: its kind, its name, and the rest. -/
structure ImportField where
  moduleName : String
  name : String
  kind : String
  items : List Node

def importField? (items : List Node) : Option ImportField :=
  match items with
  | [.string m, .string n, desc] =>
    match textOf? m, textOf? n, field? desc with
    | some m, some n, some f => some ⟨m, n, f.kind, f.items⟩
    | _, _, _ => none
  | _ => none

/-- The names with one more in the index space of a kind. -/
def Names.add (names : Names) (kind : String) (name : Option (List Char)) : Names :=
  match kind with
  | "func" => { names with funcs := names.funcs ++ [name] }
  | "table" => { names with tables := names.tables ++ [name] }
  | "memory" => { names with memories := names.memories ++ [name] }
  | "global" => { names with globals := names.globals ++ [name] }
  | "elem" => { names with elements := names.elements ++ [name] }
  | "data" => { names with data := names.data ++ [name] }
  | _ => names

/-- The names with those of a field. -/
def Names.addField (names : Names) (f : Field) : Option Names :=
  match f.kind with
  | "type" =>
    (typeField? f.items).map fun (name, t) =>
      { names with types := names.types ++ [name], funcTypes := names.funcTypes ++ [t] }
  | "import" =>
    (importField? f.items).map fun i => names.add i.kind (splitName i.items).1
  | kind => some (names.add kind (splitName f.items).1)

/-- Whether no name stands for two things of one kind. -/
def Names.areDistinct (names : Names) : Bool :=
  !(hasTwice names.types || hasTwice names.funcs || hasTwice names.tables ||
    hasTwice names.memories || hasTwice names.globals || hasTwice names.elements ||
    hasTwice names.data)

/-- The locals declared in front of a body, and the body. -/
def takeLocals : List Node → Option (List (Option (List Char) × ValType) × List Node)
  | n :: rest =>
    match listOf? "local" n with
    | some items =>
      match declarations? items, takeLocals rest with
      | some ls, some (more, body) => some (ls ++ more, body)
      | _, _ => none
    | none => some ([], n :: rest)
  | [] => some ([], [])

/-- The types that have to be listed for a field, in order: those of functions and of their
instructions. -/
def Field.listedTypes (names : Names) (f : Field) : List FuncType :=
  match f.kind with
  | "import" =>
    match importField? f.items with
    | some ⟨_, _, "func", items⟩ => (listedType? names (splitName items).2).toList
    | _ => []
  | "func" =>
    match header? f.items with
    | some h =>
      let use := h.rest.takeWhile Node.isTypePart
      let code := match takeLocals (h.rest.drop use.length) with
        | some (_, body) => codeTypes names body
        | none => []
      (listedType? names use).toList ++ code
    | none => []
  | _ => []

/-- The names and types of a module. -/
def names? (fields : List Field) : Option Names :=
  match fields.foldlM Names.addField {} with
  | some names =>
    if names.areDistinct then
      some { names with
        funcTypes := withTypes names.funcTypes (fields.flatMap (Field.listedTypes names)) }
    else none
  | none => none

end LiveTrace.Wasm.Text
