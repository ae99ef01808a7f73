import LiveTrace.Json.Reading

/-
  What is said about a unit or its options before anything runs.
-/
namespace LiveTrace

inductive Severity where
  | warning
  | error
  deriving DecidableEq, Repr

def Severity.label : Severity → String
  | .warning => "warning"
  | .error => "error"

/-- A severity by its label. -/
def Severity.ofLabel? (label : String) : Option Severity :=
  [warning, error].find? (·.label == label)

/-- One message. -/
structure Diagnostic where
  severity : Severity
  message : String
  deriving DecidableEq, Repr

namespace Diagnostic

def isError (d : Diagnostic) : Bool := d.severity == .error

/-- The message behind its label. -/
def render (d : Diagnostic) : String := d.severity.label ++ ": " ++ d.message

def toJson (d : Diagnostic) : Json :=
  .fields [("severity", .ofString d.severity.label), ("message", .ofString d.message)]

def ofJson? (levels : Nat) (v : Json) : Option Diagnostic := do
  let (levels, f) ← Json.fields? ["severity", "message"] levels v
  let label ← f.required "severity" (Json.choice? levels)
  let severity ← Severity.ofLabel? label
  let message ← f.required "message" Json.text?
  return ⟨severity, message⟩

end Diagnostic

/-- Whether any message stops the run. -/
def hasErrors (ds : List Diagnostic) : Bool := ds.any Diagnostic.isError

end LiveTrace
