import LiveTrace.Number.Power

/-
  Binary floating-point numbers as bit patterns: what a pattern stands for, and rounding an
  exact quotient to the nearest representable number, ties to the even one.
-/
namespace LiveTrace.Number

/-- The shape of a binary floating-point format: bits of the significand (the leading one
included) and of the exponent. -/
structure BinaryFormat where
  precision : Nat
  exponentBits : Nat

/-- Sixty-four bits. -/
def binary64 : BinaryFormat := ⟨53, 11⟩

/-- Thirty-two bits. -/
def binary32 : BinaryFormat := ⟨24, 8⟩

namespace BinaryFormat

/-- The bits of the fraction field. -/
def fractionBits (f : BinaryFormat) : Nat := f.precision - 1

/-- The exponent field of infinities and NaNs. -/
def specialExponent (f : BinaryFormat) : Nat := pow2 f.exponentBits - 1

/-- The power of two that the last bit of a subnormal number is worth. -/
def leastExponent (f : BinaryFormat) : Int :=
  2 - (pow2 (f.exponentBits - 1) : Int) - f.fractionBits

/-- The position of the sign bit. -/
def signBit (f : BinaryFormat) : Nat := f.fractionBits + f.exponentBits

end BinaryFormat

/-- What a bit pattern stands for. A finite number is `significand * 2 ^ exponent`, negated if
`negative`; `lowest` tells that it is the least number of its power of two, where the gap
below is half the gap above. -/
inductive BinaryValue where
  | nan
  | infinity (negative : Bool)
  | finite (negative : Bool) (significand : Nat) (exponent : Int) (lowest : Bool)
  deriving DecidableEq, Repr

/-- The value of a bit pattern. -/
def BinaryFormat.value (f : BinaryFormat) (bits : Nat) : BinaryValue :=
  let fraction := bits % pow2 f.fractionBits
  let exponent := bits / pow2 f.fractionBits % pow2 f.exponentBits
  let negative := bits / pow2 f.signBit % 2 == 1
  if exponent == f.specialExponent then
    if fraction == 0 then .infinity negative else .nan
  else if exponent == 0 then .finite negative fraction f.leastExponent false
  else .finite negative (fraction + pow2 f.fractionBits) (f.leastExponent + exponent - 1)
    (fraction == 0 && exponent > 1)

/-- The pattern of an infinity. -/
def BinaryFormat.infinity (f : BinaryFormat) (negative : Bool) : Nat :=
  (if negative then pow2 f.signBit else 0) + f.specialExponent * pow2 f.fractionBits

/-- The pattern of the NaN with payload `payload`. -/
def BinaryFormat.nan (f : BinaryFormat) (negative : Bool) (payload : Nat) : Nat :=
  f.infinity negative + payload

/-- `num / den` rounded to an integer, ties to the even one. -/
def roundQuotient (num den : Nat) : Nat :=
  let q := num / den
  let r := num % den
  if 2 * r < den then q
  else if den < 2 * r then q + 1
  else q + q % 2

/-- The nearest pattern to the positive quotient `num / den`; `none` when that is beyond the
greatest finite number. -/
def BinaryFormat.round? (f : BinaryFormat) (negative : Bool) (num den : Nat) : Option Nat :=
  let sign := if negative then pow2 f.signBit else 0
  if num == 0 then some sign
  else
    let guess : Int := (Nat.log2 num : Int) - Nat.log2 den - f.fractionBits
    let scaled (e : Int) : Nat × Nat :=
      if 0 ≤ e then (num, den * pow2 e.toNat) else (num * pow2 (-e).toNat, den)
    -- `guess` is right or one too high
    let exponent :=
      if (scaled guess).1 < (scaled guess).2 * pow2 f.fractionBits then guess - 1 else guess
    let exponent := max exponent f.leastExponent
    let (n, d) := scaled exponent
    let significand := roundQuotient n d
    -- a significand that rounds up to the next power of two carries into the exponent field
    let field := (exponent - f.leastExponent).toNat * pow2 f.fractionBits + significand
    if field < f.specialExponent * pow2 f.fractionBits then some (sign + field) else none

/-- The pattern nearest to `digits * 10 ^ exponent`; `none` when that is too large. -/
def BinaryFormat.ofDecimal? (f : BinaryFormat) (negative : Bool) (digits : Nat) (exponent : Int) :
    Option Nat :=
  if digits == 0 then f.round? negative 0 1
  else
    let magnitude : Int := exponent + (Nat.toDigits 10 digits).length
    if 400 < magnitude then none
    else if magnitude < -400 then f.round? negative 0 1
    else if 0 ≤ exponent then f.round? negative (digits * pow10 exponent.toNat) 1
    else f.round? negative digits (pow10 (-exponent).toNat)

/-- The product of two finite patterns, rounded; `none` when it is too large. -/
def BinaryFormat.product? (f : BinaryFormat) (a b : Nat) : Option Nat :=
  match f.value a, f.value b with
  | .finite n s x _, .finite m t y _ =>
    let power := x + y
    if 0 ≤ power then f.round? (n != m) (s * t * pow2 power.toNat) 1
    else f.round? (n != m) (s * t) (pow2 (-power).toNat)
  | _, _ => none

end LiveTrace.Number
