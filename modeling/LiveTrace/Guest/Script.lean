import LiveTrace.Hook.Signature
import LiveTrace.Hook.Value
import LiveTrace.Number.Power

/-
  Scripts: instrumented programs given as data, and the text they are compiled from. A script
  is some bytes of memory and a list of commands, most of which call a hook; a repeated part
  has a counter that operands can refer to.
-/
namespace LiveTrace.Script

open Wasm (ValType)

/-- An operand of a hook. -/
inductive Operand where
  | number (n : Int)
  /-- A floating-point number, by its bits. -/
  | float (bits : Nat)
  /-- The id of the submission that runs. -/
  | self
  /-- The counter of the innermost repeated part, or zero outside of any. -/
  | counter
  deriving DecidableEq, Repr

inductive Command where
  | call (h : Hook) (operands : List Operand)
  | unreachable
  | divideByZero
  | divideOverflow
  | truncateNan
  /-- Calls itself for ever. -/
  | recurse
  /-- Ends the program. -/
  | ret
  /-- Reads one byte. -/
  | load (address : Int)
  /-- Writes one byte. -/
  | store (address byte : Int)
  | grow (pages : Int)
  | repeated (count : Int) (body : List Command)

/-- Bytes in memory. -/
structure Part where
  address : Nat
  bytes : List UInt8

structure Program where
  memory : List Part := []
  commands : List Command := []

/-- A number as a constant of thirty-two bits. -/
def const32 (n : Int) : String := "i32.const " ++ intText (n % Number.pow2 32) ++ " "

def const64 (n : Int) : String := "i64.const " ++ intText (n % Number.pow2 64) ++ " "

/-- The local that counts at a depth. -/
def counterName (depth : Nat) : String := s!"$counter{depth}"

/-- An operand of a type, inside `depth` repeated parts. -/
def operandText (depth : Nat) (t : ValType) (o : Operand) : String :=
  match o, t with
  | .number n, .i64 => const64 n
  | .number n, .f64 => const64 n ++ "f64.reinterpret_i64 "
  | .number n, _ => const32 n
  | .float bits, _ => const64 bits ++ "f64.reinterpret_i64 "
  | .self, _ => s!"global.get ${hookModule}.{submissionGlobal} "
  | .counter, t =>
    let counter := match depth with
      | 0 => const32 0
      | d + 1 => s!"local.get {counterName d} "
    match t with
    | .i64 => counter ++ "i64.extend_i32_s "
    | .f64 => counter ++ "f64.convert_i32_s "
    | _ => counter

/-- The function that calls itself for ever. -/
def recursion : String := "$recurse"

mutual

/-- A command as text, inside `depth` repeated parts. -/
def commandText (depth : Nat) : Command → String
  | .call h operands =>
    String.join ((h.params.zip operands).map fun (t, o) => operandText depth t o) ++
      s!"call ${hookModule}.{h.name}\n"
  | .unreachable => "unreachable\n"
  | .divideByZero => const32 1 ++ const32 0 ++ "i32.div_s drop\n"
  | .divideOverflow => const32 (-Number.pow2 31) ++ const32 (-1) ++ "i32.div_s drop\n"
  | .truncateNan => "f64.const nan i32.trunc_f64_s drop\n"
  | .recurse => s!"call {recursion}\n"
  | .ret => "return\n"
  | .load address => const32 address ++ "i32.load8_u drop\n"
  | .store address byte => const32 address ++ const32 byte ++ "i32.store8\n"
  | .grow pages => const32 pages ++ "memory.grow drop\n"
  | .repeated count body =>
    let counter := counterName depth
    const32 0 ++ s!"local.set {counter}\n(block (loop local.get {counter} " ++ const32 count ++
      "i32.ge_s br_if 1\n" ++ commandsText (depth + 1) body ++
      s!"local.get {counter} i32.const 1 i32.add local.set {counter} br 0))\n"

def commandsText (depth : Nat) : List Command → String
  | [] => ""
  | c :: cs => commandText depth c ++ commandsText depth cs

end

mutual

/-- How many repeated parts stand in each other. -/
def depthOf : Command → Nat
  | .repeated _ body => depthOfAll body + 1
  | _ => 0

def depthOfAll : List Command → Nat
  | [] => 0
  | c :: cs => max (depthOf c) (depthOfAll cs)

end

/-- A byte inside a string. -/
def byteText (b : UInt8) : String := String.ofList ('\\' :: Number.hexPadded 2 b.toNat)

/-- Bytes in memory as a field of a source. -/
def Part.text (p : Part) : String :=
  "(data (" ++ const32 p.address ++ ") \"" ++ String.join (p.bytes.map byteText) ++ "\")\n"

namespace Program

/-- The source that goes with the code: the memory, and the function that never returns. -/
def source (p : Program) : String :=
  String.join (p.memory.map Part.text) ++ s!"(func {recursion} call {recursion})\n"

/-- The local that counts at a depth, declared. -/
def counterLocal (depth : Nat) : String := s!"(local {counterName depth} i32)\n"

/-- The code of the evaluation. -/
def code (p : Program) : String :=
  String.join ((List.range (depthOfAll p.commands)).map counterLocal) ++ commandsText 0 p.commands

end Program

end LiveTrace.Script
