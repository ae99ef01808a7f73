import LiveTrace.Number.Power
import LiveTrace.Text.Utf8
import LiveTrace.Wasm.Types

/-
  Reading values from the front of some bytes. A number is written seven bits a byte, the lowest
  first, and every byte but its last is 128 or more; it may be longer than it needs to be, but
  not longer than the greatest number of its size.
-/
namespace LiveTrace.Wasm.Binary

open Number (pow2)

/-- Takes a value from the front of some bytes, and tells the rest. -/
abbrev Reader := StateT (List UInt8) Option

/-- Nothing can be read. -/
def fail {α : Type} : Reader α := fun _ => none

def byte : Reader UInt8
  | [] => none
  | b :: bs => some (b, bs)

/-- An unsigned number of `bits` bits at the front of some bytes, and the rest. -/
def takeUnsigned : Nat → List UInt8 → Option (Nat × List UInt8)
  | _, [] => none
  | bits, b :: bs =>
    let n := b.toNat
    if n < 128 then if n < pow2 bits then some (n, bs) else none
    else if 7 < bits then
      (takeUnsigned (bits - 7) bs).map fun (high, rest) => (n - 128 + 128 * high, rest)
    else none

/-- A signed number of `bits` bits at the front of some bytes, and the rest. -/
def takeSigned : Nat → List UInt8 → Option (Int × List UInt8)
  | _, [] => none
  | bits, b :: bs =>
    let n := b.toNat
    if n < 64 then if n < pow2 (bits - 1) then some (n, bs) else none
    else if n < 128 then if 128 - n ≤ pow2 (bits - 1) then some ((n : Int) - 128, bs) else none
    else if 7 < bits then
      (takeSigned (bits - 7) bs).map fun (high, rest) => ((n : Int) - 128 + 128 * high, rest)
    else none

/-- An index, a size or a count. -/
def index : Reader Nat := takeUnsigned 32

/-- The word of `bits` bits that a signed number stands for. -/
def word (bits : Nat) : Reader Nat := do
  let n ← takeSigned bits
  return (n % pow2 bits).toNat

/-- As many bytes as asked for. -/
def take (n : Nat) : Reader (List UInt8) := fun bs =>
  if (bs.take n).length = n then some (bs.take n, bs.drop n) else none

/-- A size, and as many bytes. -/
def sized : Reader (List UInt8) := do take (← index)

/-- A text with its size in front of it. -/
def name : Reader String := do
  let bytes ← sized
  if maxNameSize < bytes.length then fail
  else match Utf8.decode bytes with
    | .ok cs => return String.ofList cs
    | .error _ => fail

/-- What is there, or nothing can be read. -/
def given {α : Type} : Option α → Reader α
  | some a => return a
  | none => fail

/-- As many values as asked for. -/
def times {α : Type} (read : Reader α) : Nat → Reader (List α)
  | 0 => return []
  | n + 1 => return (← read) :: (← times read n)

/-- A count, and as many values. -/
def listOf {α : Type} (read : Reader α) : Reader (List α) := do times read (← index)

/-- What `read` takes if it takes all of some bytes. -/
def whole? {α : Type} (read : Reader α) (bytes : List UInt8) : Option α :=
  match read bytes with
  | some (a, []) => some a
  | _ => none

/-- The type of values that a byte stands for. -/
def valType? (b : UInt8) : Option ValType :=
  if b == 0x7F then some .i32
  else if b == 0x7E then some .i64
  else if b == 0x7D then some .f32
  else if b == 0x7C then some .f64
  else if b == 0x70 then some .funcref
  else if b == 0x6F then some .externref
  else none

/-- What the long spelling of a type of references that may be null begins with. -/
def nullMark : UInt8 := 0x63

/-- A type of values. -/
def valType : Reader ValType := do
  let b ← byte
  if b == nullMark then given ((valType? (← byte)).filter ValType.isRef)
  else given (valType? b)

/-- A type of references. -/
def refType : Reader ValType := do
  let t ← valType
  if t.isRef then return t else fail

/-- A function type, behind its mark. -/
def funcType : Reader FuncType := do
  if (← byte) == 0x60 then return ⟨← listOf valType, ← listOf valType⟩ else fail

/-- Sizes: whether there is a greatest one, the least one, and the greatest one. -/
def limits : Reader Limits := do
  let flags ← byte
  if flags == 0 then return ⟨← index, none⟩
  else if flags == 1 then return ⟨← index, some (← index)⟩
  else fail

def tableType : Reader TableType := do
  let element ← refType
  return ⟨← limits, element⟩

def globalType : Reader GlobalType := do
  let value ← valType
  let mutable ← byte
  if mutable == 0 then return ⟨value, false⟩
  else if mutable == 1 then return ⟨value, true⟩
  else fail

end LiveTrace.Wasm.Binary
