import LiveTrace.Number.Binary
import LiveTrace.Number.Digits
import LiveTrace.Number.Power

/-
  The numbers of WebAssembly text: decimal or hexadecimal, with single underscores between
  digits. An integer constant may be given as signed or unsigned; a floating-point one is the
  nearest number of its format and must not be too large for it.
-/
namespace LiveTrace.Wasm.Text

open Number (pow2)

/-- The digits of a run without their underscores, each of which stands between two digits. -/
def withoutUnderscores : List Char → Option (List Char)
  | [] => none
  | [c] => if c == '_' then none else some [c]
  | c :: '_' :: cs =>
    if c == '_' then none else (withoutUnderscores cs).map (c :: ·)
  | c :: cs => if c == '_' then none else (withoutUnderscores cs).map (c :: ·)

/-- A number without sign. -/
def natural? (cs : List Char) : Option Nat :=
  match cs with
  | '0' :: 'x' :: ds => (withoutUnderscores ds).bind Number.hexadecimal?
  | ds => (withoutUnderscores ds).bind Number.decimal?

/-- Whether a text has a minus sign, and what follows its sign. -/
def splitSign (cs : List Char) : Bool × List Char :=
  match cs with
  | '-' :: rest => (true, rest)
  | '+' :: rest => (false, rest)
  | rest => (false, rest)

/-- An integer of `bits` bits: signed or unsigned, as its unsigned value. -/
def integer? (bits : Nat) (cs : List Char) : Option Nat :=
  let (negative, ds) := splitSign cs
  match natural? ds with
  | none => none
  | some n =>
    if negative then
      if n ≤ pow2 (bits - 1) then some ((pow2 bits - n) % pow2 bits) else none
    else if n < pow2 bits then some n
    else none

/-- An index or a size: a number below 2 ^ 32, which may have a plus sign. -/
def index? (cs : List Char) : Option Nat :=
  match splitSign cs with
  | (true, _) => none
  | (false, ds) =>
    match natural? ds with
    | some n => if n < pow2 32 then some n else none
    | none => none

/-- Digits that may be missing altogether. -/
def maybeDigits? (cs : List Char) : Option (List Char) :=
  if cs.isEmpty then some [] else withoutUnderscores cs

/-- An exponent: a sign and decimal digits. -/
def exponent? (cs : List Char) : Option Int :=
  let (negative, ds) := splitSign cs
  ((withoutUnderscores ds).bind Number.decimal?).map fun n =>
    if negative then -(n : Int) else n

/-- A text cut at the first character that `p` holds of: before, and after it if it is there. -/
def cutAt (p : Char → Bool) (cs : List Char) : List Char × Option (List Char) :=
  let front := cs.takeWhile (!p ·)
  match cs.drop front.length with
  | [] => (front, none)
  | _ :: rest => (front, some rest)

/-- The parts of a number with point and exponent: the digits in front of the point, those behind
it, and the exponent. -/
def floatParts? (isExponentMark : Char → Bool) (cs : List Char) :
    Option (List Char × List Char × Int) := do
  let (mantissa, power) := cutAt isExponentMark cs
  let (whole, fraction) := cutAt (· == '.') mantissa
  let whole ← withoutUnderscores whole
  let fraction ← maybeDigits? (fraction.getD [])
  let power ← match power with
    | some p => exponent? p
    | none => some 0
  return (whole, fraction, power)

/-- The least exponent of a hexadecimal number, as it is written and of its leading bit. -/
def minHexExponent : Int := -pow2 31

/-- The bits of a floating-point number written in hexadecimal. -/
def hexFloat? (f : Number.BinaryFormat) (negative : Bool) (cs : List Char) : Option Nat := do
  let (whole, fraction, power) ← floatParts? (fun c => c == 'p' || c == 'P') cs
  let digits ← Number.hexadecimal? (whole ++ fraction)
  -- the exponents of the last bit and of the leading one
  let last := power - 4 * fraction.length
  let leading := last + Nat.log2 digits
  if digits == 0 then f.round? negative 0 1
  else if power < minHexExponent || leading < minHexExponent then none
  else if leading < -5000 then f.round? negative 0 1
  else if 5000 < leading then none
  else if last < 0 then f.round? negative digits (pow2 (-last).toNat)
  else f.round? negative (digits * pow2 last.toNat) 1

/-- The bits of a floating-point number written in decimal. -/
def decimalFloat? (f : Number.BinaryFormat) (negative : Bool) (cs : List Char) : Option Nat := do
  let (whole, fraction, power) ← floatParts? (fun c => c == 'e' || c == 'E') cs
  let digits ← Number.decimal? (whole ++ fraction)
  f.ofDecimal? negative digits (power - fraction.length)

/-- The payload of the NaN that arithmetic makes. -/
def quietPayload (f : Number.BinaryFormat) : Nat := pow2 (f.fractionBits - 1)

/-- The bits of a floating-point constant. Of the payload of a NaN the lowest bits count. -/
def float? (f : Number.BinaryFormat) (cs : List Char) : Option Nat :=
  let (negative, rest) := splitSign cs
  if rest == ['i', 'n', 'f'] then some (f.infinity negative)
  else if rest == ['n', 'a', 'n'] then some (f.nan negative (quietPayload f))
  else match rest with
    | 'n' :: 'a' :: 'n' :: ':' :: '0' :: 'x' :: ds =>
      match (withoutUnderscores ds).bind Number.hexadecimal? with
      | some n =>
        let payload := n % pow2 f.fractionBits
        if n < pow2 64 && 0 < payload then some (f.nan negative payload) else none
      | none => none
    | '0' :: 'x' :: ds => hexFloat? f negative ds
    | ds => decimalFloat? f negative ds

end LiveTrace.Wasm.Text
