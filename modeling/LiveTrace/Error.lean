import LiveTrace.Project.Basic
import LiveTrace.Text.Utf8

/-
  Why something could not be done, as causes, and the wording of each.
-/
namespace LiveTrace

/-- What is wrong with a configuration. -/
inductive ConfigError where
  | unreadable (path : String) (cause : IoError)
  | notJson
  | emptyRoot
  | nulInThreadName
  deriving DecidableEq, Repr

def ConfigError.message : ConfigError → String
  | unreadable path cause => s!"Failed to read config file {path}: {cause.message}"
  | notJson => "Failed to parse config JSON"
  | emptyRoot => "workspace_root must not be empty"
  | nulInThreadName => "worker_thread_name contains NUL byte"

/-- What went wrong with a working directory. -/
inductive WorkspaceError where
  | create (dir : String) (cause : IoError)
  | createBase (dir : String) (cause : IoError)
  | write (path : String) (cause : IoError)
  | unusableName (path : String)
  | copy (path : String) (cause : IoError)
  | alreadyPresent (name runId : String)
  deriving DecidableEq, Repr

def WorkspaceError.message : WorkspaceError → String
  | create dir cause => s!"Failed to create workspace directory {dir}: {cause.message}"
  | createBase dir cause => s!"Failed to create workspace base directory {dir}: {cause.message}"
  | write path cause => s!"Failed to write {path}: {cause.message}"
  | unusableName path => s!"Unusable file name: {path}"
  | copy path cause => s!"Failed to copy {path} into workspace: {cause.message}"
  | alreadyPresent name runId => s!"{name} is already present in workspace {runId}"

/-- Why a program stopped by itself. -/
inductive Trap where
  | unreachable
  | divideByZero
  | integerOverflow
  | invalidConversion
  | callStackExhausted
  | outOfBounds
  | tableOutOfBounds
  | nullCall
  | signatureMismatch
  deriving DecidableEq, Repr

def Trap.message : Trap → String
  | unreachable => "wasm trap: wasm `unreachable` instruction executed"
  | divideByZero => "wasm trap: integer divide by zero"
  | integerOverflow => "wasm trap: integer overflow"
  | invalidConversion => "wasm trap: invalid conversion to integer"
  | callStackExhausted => "wasm trap: call stack exhausted"
  | outOfBounds => "wasm trap: out of bounds memory access"
  | tableOutOfBounds => "wasm trap: undefined element: out of bounds table access"
  | nullCall => "wasm trap: uninitialized element"
  | signatureMismatch => "wasm trap: indirect call type mismatch"

/-- What is wrong with the operands of a hook. -/
inductive OperandError where
  | outsideMemory (start stop : Nat)
  | tableTooLarge (count : Nat)
  | noMemory
  | notUtf8 (e : Utf8.Error)
  deriving DecidableEq, Repr

def OperandError.message : OperandError → String
  | outsideMemory start stop => s!"byte range {start}..{stop} is outside guest memory"
  | tableTooLarge count => s!"argument table of {count} records is too large"
  | noMemory => "guest does not export `memory`"
  | notUtf8 e => s!"hook string is not valid UTF-8: {e.message}"

/-- Why a run stopped before its end. -/
inductive RuntimeFault where
  | trap (t : Trap)
  | operand (e : OperandError)
  deriving DecidableEq, Repr

def RuntimeFault.message : RuntimeFault → String
  | trap t => t.message
  | operand e => e.message

/-- The trap, if it was one. -/
def RuntimeFault.trap? : RuntimeFault → Option Trap
  | trap t => some t
  | operand _ => none

/-- Why an evaluation could not be done, or not to its end. -/
inductive EvalError where
  | io (cause : IoError)
  | config (cause : ConfigError)
  | workspace (cause : WorkspaceError)
  | source (cause : SourceError)
  /-- What an engine that could not be set up says. -/
  | engine (text : String)
  | entryPointMissing (name : String)
  | runtime (fault : RuntimeFault)
  | panicked (message : String)
  | alreadyStarted
  | disposed
  deriving DecidableEq, Repr

def EvalError.message : EvalError → String
  | io cause => s!"IO error: {cause.message}"
  | config cause => s!"Configuration error: {cause.message}"
  | workspace cause => s!"Workspace error: {cause.message}"
  | source cause => s!"Failed to read source {cause.path}: {cause.cause.message}"
  | engine text => s!"Engine error: {text}"
  | entryPointMissing name => s!"Evaluation entry point `{name}` not found"
  | runtime fault => s!"Runtime fault: {fault.message}"
  | panicked message => s!"Evaluation panicked: {message}"
  | alreadyStarted => "Evaluator already started"
  | disposed => "Evaluator has been disposed"

end LiveTrace
