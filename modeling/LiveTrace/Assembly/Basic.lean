import LiveTrace.Assembly.Fields
import LiveTrace.Hook.Signature

/-
  The evaluation unit: one module made of the hook imports, the imports found in the
  sources, the rest of the source fields, the entry function around the evaluation code, and
  the exported memory. Every field keeps its text and its place among its own kind.
-/
namespace LiveTrace.Assembly

open Text (trim)

/-- Goes up whenever the entry's name or the hooks' operands change. -/
def version : Nat := 1

/-- The name of the entry function inside the unit. -/
def entryFunction : String := "$__instant_v1_evaluate"

/-- The name the entry function is exported under. -/
def entryExport : String := "__instant_v1_evaluate"

/-- The file an assembled unit is written to. -/
def unitFileName : String := "evaluation.wat"

/-- The import field of one hook. -/
def hookImport (h : Hook) : String :=
  "(import \"" ++ hookModule ++ "\" \"" ++ h.name ++ "\" (func $" ++ hookModule ++ "." ++ h.name ++
  " (param " ++ " ".intercalate (h.params.map (·.name)) ++ ")))"

/-- The import field of the submission's id. -/
def submissionImport : String :=
  "(import \"" ++ hookModule ++ "\" \"" ++ submissionGlobal ++ "\" (global $" ++
  hookModule ++ "." ++ submissionGlobal ++ " i32))"

/-- A field on a line of its own. -/
def line (field : String) : String := "  " ++ field ++ "\n"

/-- The imports every unit starts with. -/
def preludeFields : List String := Hook.all.map hookImport ++ [submissionImport]

def prelude : String := String.join (preludeFields.map line)

/-- The entry function, with exactly `code` as its body. -/
def entry (code : String) : String :=
  "  (func " ++ entryFunction ++ " (export \"" ++ entryExport ++ "\")\n" ++ code ++ "\n  )\n"

/-- The memory hooks read strings from. -/
def memoryField : String := "(memory (export \"" ++ memoryExport ++ "\") 1)"

/-- The fields of one source, cut into imports and the rest. A source that cannot be split
is one definition, left for the compiler to refuse. -/
def sourceFields (source : String) : List String × List String :=
  match splitChars source.toList with
  | some fields =>
    let (imports, others) := fields.partition isImport
    (imports.map String.ofList, others.map String.ofList)
  | none => ([], [source])

/-- The imports of all sources, in order. -/
def imports (sources : List String) : List String := sources.flatMap fun s => (sourceFields s).1

/-- The other fields of all sources, in order. -/
def definitions (sources : List String) : List String :=
  sources.flatMap fun s => (sourceFields s).2

/-- A source field without blanks around it, on a line of its own. -/
def fieldLine (field : String) : String := line (String.ofList (trim field.toList))

/-- The complete unit. -/
def assemble (sources : List String) (code : String) : String :=
  "(module\n" ++ prelude ++
  String.join ((imports sources ++ definitions sources).map fieldLine) ++
  entry code ++ line memoryField ++ ")\n"

end LiveTrace.Assembly
