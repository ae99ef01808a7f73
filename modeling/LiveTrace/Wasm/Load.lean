import LiveTrace.Wasm.Binary.Module
import LiveTrace.Wasm.Text.Module
import LiveTrace.Wasm.Validation

/-
  Modules out of files. A file with the mark of binary modules is one; every other file is text,
  which may also give the bytes of a binary module.
-/
namespace LiveTrace.Wasm

/-- The module that a text holds, valid or not. -/
def Module.ofText? (cs : List Char) : Option Module :=
  match Text.trees? cs with
  | some trees =>
    match Text.binary? trees with
    | some bytes => Binary.module? bytes
    | none => Text.module? trees
  | none => none

/-- The module in a file, if it is valid. -/
def Module.load? (bytes : List UInt8) : Option Module :=
  let found :=
    if Binary.mark.isPrefixOf bytes then Binary.module? bytes
    else match Utf8.decode bytes with
      | .ok cs => ofText? cs
      | .error _ => none
  found.filter isValid

end LiveTrace.Wasm
