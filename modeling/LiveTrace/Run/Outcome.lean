import LiveTrace.Compiler.Diagnostic
import LiveTrace.Error
import LiveTrace.Run.Report

/-
  How a run ends. A run that was not started for want of a module, or because something does
  not compile, has changed nothing.
-/
namespace LiveTrace

/-- Why the modules of a run do not fit together. -/
inductive CompileError where
  /-- What is said about the options. -/
  | options (ds : List Diagnostic)
  /-- The unit is no valid module. -/
  | invalidUnit
  /-- The unit cannot be linked or started. -/
  | unlinkedUnit
  /-- A dependency is no valid module. -/
  | load (path : String)
  /-- A dependency cannot be linked or started. -/
  | link (name : String)
  /-- A dependency exports something under a name that is taken. -/
  | register (name : String)
  deriving DecidableEq, Repr

def CompileError.diagnostics : CompileError → List Diagnostic
  | options ds => ds
  | invalidUnit => [⟨.error, "the unit is not a valid module"⟩]
  | unlinkedUnit => [⟨.error, "the unit cannot be instantiated"⟩]
  | load path => [⟨.error, s!"cannot load {path}"⟩]
  | link name => [⟨.error, s!"cannot link {name}"⟩]
  | register name => [⟨.error, s!"cannot register {name}"⟩]

inductive RunOutcome where
  | completed
  | aborted
  | missingDependency (path : String)
  | compileErrors (e : CompileError)
  | faulted (e : EvalError)
  deriving DecidableEq, Repr

structure RunResult where
  outcome : RunOutcome
  /-- Missing when no working directory could be made. -/
  report : Option RunReport
  deriving DecidableEq, Repr

/-- What a run says about its outcome in the log. -/
def RunOutcome.note? (id : SubmissionId) : RunOutcome → Option String
  | missingDependency path => some s!"Submission {id} skipped: dependency {path} is missing"
  | compileErrors e =>
    some s!"Submission {id} skipped: {e.diagnostics.length} compile diagnostic(s)"
  | aborted => some s!"Submission {id} aborted"
  | _ => none

end LiveTrace
