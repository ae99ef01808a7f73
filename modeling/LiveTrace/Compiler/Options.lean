import LiveTrace.Compiler.Diagnostic
import LiveTrace.Number.Digits
import LiveTrace.Number.Power
import LiveTrace.Text.Blank

/-
  Compiler options from a free-form text: words separated by blanks, each one flag. Of
  several settings of one option the last counts. An unknown flag is a warning, a malformed
  stack size an error, and neither sets anything.
-/
namespace LiveTrace

inductive OptLevel where
  | none
  | speed
  | speedAndSize
  deriving DecidableEq, Repr

/-- The settings a text of options can make. -/
structure CompilerOptions where
  optLevel : Option OptLevel := none
  debugInfo : Bool := false
  maxStack : Option Nat := none
  deriving DecidableEq, Repr

namespace CompilerOptions

/-- What one word of the options asks for. -/
inductive Flag where
  | level (l : OptLevel)
  | debug
  | stack (bytes : Nat)
  | badStack (value : List Char)
  | unknown (word : List Char)
  deriving DecidableEq, Repr

/-- The flag that a stack size is the value of. -/
def stackFlag : List Char := "--max-wasm-stack=".toList

/-- A stack size: a positive number of sixty-four bits, maybe with a plus sign. -/
def stackSize? (value : List Char) : Option Nat :=
  match Number.unsigned? (Number.pow2 64) value with
  | some (n + 1) => some (n + 1)
  | _ => none

/-- The flag that a word is. -/
def Flag.ofWord (word : List Char) : Flag :=
  if word == "-O0".toList then .level .none
  else if word == "-O1".toList || word == "-O2".toList then .level .speed
  else if word == "-Os".toList then .level .speedAndSize
  else if word == "-g".toList then .debug
  else if stackFlag.isPrefixOf word then
    let value := word.drop stackFlag.length
    match stackSize? value with
    | some n => .stack n
    | none => .badStack value
  else .unknown word

/-- The options after one more flag. -/
def apply (o : CompilerOptions) : Flag → CompilerOptions
  | .level l => { o with optLevel := some l }
  | .debug => { o with debugInfo := true }
  | .stack n => { o with maxStack := some n }
  | .badStack _ => o
  | .unknown _ => o

/-- What is said about a flag. -/
def Flag.diagnostic? : Flag → Option Diagnostic
  | .badStack value =>
    some ⟨.error, "invalid value `" ++ String.ofList value ++ "` for --max-wasm-stack"⟩
  | .unknown word =>
    some ⟨.warning, "ignoring unknown compiler option `" ++ String.ofList word ++ "`"⟩
  | _ => none

/-- The flags of a text, in order. -/
def flags (text : List Char) : List Flag := (Text.words text).map Flag.ofWord

/-- The options a text asks for and what is said about it. -/
def parse (text : String) : CompilerOptions × List Diagnostic :=
  let fs := flags text.toList
  (fs.foldl apply {}, fs.filterMap Flag.diagnostic?)

end CompilerOptions

end LiveTrace
