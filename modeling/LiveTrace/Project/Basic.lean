import LiveTrace.Files.Tree
import LiveTrace.Json.Reading

/-
  What a submission is built from: sources, references to other modules, and compiler
  options.
-/
namespace LiveTrace

/-- A source: a file, or its text itself. -/
inductive Source where
  | file (path : String)
  | text (text : String)
  deriving DecidableEq, Repr

structure Project where
  sources : List Source := []
  references : List String := []
  compilerOptions : String := ""
  deriving DecidableEq, Repr

/-- The source that could not be read, and why. -/
structure SourceError where
  path : String
  cause : IoError
  deriving DecidableEq, Repr

namespace Source

/-- The whole text of a source. -/
def read (f : Files) : Source → Except SourceError String
  | file path =>
    match f.readText path with
    | .ok t => .ok t
    | .error cause => .error ⟨path, cause⟩
  | text t => .ok t

/-- The names of the kinds, and the content. -/
def toJson : Source → Json
  | file path => .fields [("kind", .ofString "file"), ("value", .ofString path)]
  | text t => .fields [("kind", .ofString "text"), ("value", .ofString t)]

/-- The source of a kind. -/
def ofKind? (kind value : String) : Option Source :=
  if kind == "file" then some (file value)
  else if kind == "text" then some (text value)
  else none

/-- Reads a source: its kind and its content, both of them given. -/
def ofJson? (levels : Nat) (v : Json) : Option Source := do
  let (levels, f) ← Json.fields? ["kind", "value"] levels v
  let kind ← f.required "kind" (Json.choice? levels)
  let value ← f.required "value" Json.text?
  ofKind? kind value

end Source

namespace Project

/-- The texts of all sources in order, or the first that cannot be read. -/
def readSources (p : Project) (f : Files) : Except SourceError (List String) :=
  p.sources.mapM (Source.read f)

def toJson (p : Project) : Json :=
  .fields [("sources", .array (p.sources.map Source.toJson)),
    ("references", .array (p.references.map Json.ofString)),
    ("compiler_options", .ofString p.compilerOptions)]

def fieldNames : List String := ["sources", "references", "compiler_options"]

/-- Reads a project. Only the options may be left out. -/
def ofJson? (levels : Nat) (v : Json) : Option Project := do
  let (levels, f) ← Json.fields? fieldNames levels v
  let sources ← f.required "sources" (Json.list? Source.ofJson? levels)
  let references ← f.required "references" (Json.list? (fun _ => Json.text?) levels)
  let options ← f.withDefault "compiler_options" "" Json.text?
  return ⟨sources, references, options⟩

end Project

end LiveTrace
