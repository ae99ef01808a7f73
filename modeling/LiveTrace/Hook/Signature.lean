import LiveTrace.Wasm.Types

/-
  The fifteen hooks that instrumented code calls, with their names and operands. A string
  operand takes two places, its address and its length; no hook has a result.
-/
namespace LiveTrace

open Wasm (ValType FuncType)

/-- What instrumented code can report. -/
inductive Hook where
  | beginMethod | endMethod
  | beginLoop | endLoop
  | beginInsideLoop | endInsideLoop
  | logVariableChange | logI32 | logI64 | logF64
  | logReturn | logReturnValue | logReturnI32 | logReturnI64 | logReturnF64
  deriving DecidableEq, Repr

namespace Hook

/-- The name a hook is imported under. -/
def name : Hook → String
  | beginMethod => "begin_method"
  | endMethod => "end_method"
  | beginLoop => "begin_loop"
  | endLoop => "end_loop"
  | beginInsideLoop => "begin_inside_loop"
  | endInsideLoop => "end_inside_loop"
  | logVariableChange => "log_variable_change"
  | logI32 => "log_i32"
  | logI64 => "log_i64"
  | logF64 => "log_f64"
  | logReturn => "log_return"
  | logReturnValue => "log_return_value"
  | logReturnI32 => "log_return_i32"
  | logReturnI64 => "log_return_i64"
  | logReturnF64 => "log_return_f64"

/-- The operands of a hook: the submission's id, the id of the source location, and what the
hook reports. -/
def params : Hook → List ValType
  | beginMethod => [.i32, .i32, .i32, .i32, .i32, .i32]
  | endMethod => [.i32, .i32]
  | beginLoop => [.i32, .i32]
  | endLoop => [.i32, .i32]
  | beginInsideLoop => [.i32, .i32]
  | endInsideLoop => [.i32, .i32]
  | logVariableChange => [.i32, .i32, .i32, .i32, .i32, .i32]
  | logI32 => [.i32, .i32, .i32, .i32, .i32]
  | logI64 => [.i32, .i32, .i32, .i32, .i64]
  | logF64 => [.i32, .i32, .i32, .i32, .f64]
  | logReturn => [.i32, .i32]
  | logReturnValue => [.i32, .i32, .i32, .i32]
  | logReturnI32 => [.i32, .i32, .i32]
  | logReturnI64 => [.i32, .i32, .i64]
  | logReturnF64 => [.i32, .i32, .f64]

/-- The type of a hook as a function. -/
def type (h : Hook) : FuncType := ⟨h.params, []⟩

/-- Every hook, in the order a unit imports them. -/
def all : List Hook :=
  [beginMethod, endMethod, beginLoop, endLoop, beginInsideLoop, endInsideLoop,
   logVariableChange, logI32, logI64, logF64,
   logReturn, logReturnValue, logReturnI32, logReturnI64, logReturnF64]

end Hook

/-- The module that hooks and the submission's id are imported from. -/
def hookModule : String := "instant"

/-- The imported global that holds the id of the submission being run. -/
def submissionGlobal : String := "submission"

/-- The exported memory that hooks read strings from. -/
def memoryExport : String := "memory"

end LiveTrace
