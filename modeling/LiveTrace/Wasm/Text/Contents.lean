import LiveTrace.Wasm.Memory
import LiveTrace.Wasm.Text.Layout
import LiveTrace.Wasm.Text.Literal

/-
  The bytes that a memory is given: strings, and lists of numbers of one kind. The lowest byte of
  a number comes first.
-/
namespace LiveTrace.Wasm.Text

def bytes? : Node → Option (List UInt8)
  | .string bytes => some bytes
  | _ => none

/-- The bytes of some strings. -/
def strings? (ns : List Node) : Option (List UInt8) := (ns.mapM bytes?).map List.flatten

/-- How many bytes a number of a kind has, and how it is read. -/
def numberKind? (kind : String) : Option (Nat × (List Char → Option Nat)) :=
  match kind with
  | "i8" => some (1, integer? 8)
  | "i16" => some (2, integer? 16)
  | "i32" => some (4, integer? 32)
  | "i64" => some (8, integer? 64)
  | "f32" => some (4, float? Number.binary32)
  | "f64" => some (8, float? Number.binary64)
  | _ => none

/-- The bytes of a number of a kind. -/
def numberBytes? (kind : String) : Node → Option (List UInt8)
  | .word cs =>
    match numberKind? kind with
    | some (size, read) => (read cs).map (toLittleEndian size)
    | none => none
  | _ => none

/-- The bytes of a string or of a list of numbers. -/
def contentBytes? : Node → Option (List UInt8)
  | .string bytes => some bytes
  | .list (.word cs :: numbers) =>
    let kind := String.ofList cs
    if (numberKind? kind).isSome then (numbers.mapM (numberBytes? kind)).map List.flatten
    else none
  | _ => none

/-- The bytes of strings and lists of numbers. -/
def contents? (ns : List Node) : Option (List UInt8) := (ns.mapM contentBytes?).map List.flatten

end LiveTrace.Wasm.Text
