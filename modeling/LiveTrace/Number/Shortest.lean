import LiveTrace.Number.Binary
import LiveTrace.Number.Digits
import LiveTrace.Number.Power

/-
  The shortest decimal that reads back as a given binary number, and its positional text.
  On the decimal grids of 1, 2, … 17 digits the value's two neighbours are tested in exact
  arithmetic; the first grid that holds a number rounding to the value wins, and on it the
  nearer neighbour, the one further from zero when both are equally near.
-/
namespace LiveTrace.Number

/-- The positive reals `low / den … high / den` that round to `mid / den`; the ends belong to
them when `closed`. -/
structure RoundingInterval where
  low : Nat
  mid : Nat
  high : Nat
  den : Nat
  closed : Bool

/-- The rounding interval of `significand * 2 ^ exponent`. -/
def roundingInterval (significand : Nat) (exponent : Int) (lowest : Bool) : RoundingInterval :=
  let scale := if 2 ≤ exponent then pow2 (exponent - 2).toNat else 1
  let den := if 2 ≤ exponent then 1 else pow2 (2 - exponent).toNat
  { low := (4 * significand - if lowest then 1 else 2) * scale
    mid := 4 * significand * scale
    high := (4 * significand + 2) * scale
    den := den
    closed := significand % 2 == 0 }

/-- Whether the quotient `num / den` lies in the interval. -/
def RoundingInterval.holds (r : RoundingInterval) (num den : Nat) : Bool :=
  let x := num * r.den
  let low := r.low * den
  let high := r.high * den
  if r.closed then low ≤ x && x ≤ high else low < x && x < high

/-- The number of digits in front of the point of `num / den`; zero or negative when the
first digit that counts stands behind the point. -/
def leadingPlaces (num den : Nat) : Int :=
  if den ≤ num then (digits (num / den)).length
  else behind 400 0 num
where
  behind : Nat → Nat → Nat → Int
    | 0, zeros, _ => -(zeros : Int)
    | fuel + 1, zeros, num =>
      if den ≤ num * 10 then -(zeros : Int) else behind fuel (zeros + 1) (num * 10)

/-- The point of the grid of width `10 ^ exponent` that lies in the interval, if one of the
value's two neighbours does; of two the nearer, of two equally near the upper one. -/
def RoundingInterval.onGrid (r : RoundingInterval) (exponent : Int) : Option Nat :=
  let up := if 0 ≤ exponent then pow10 exponent.toNat else 1
  let down := if 0 ≤ exponent then 1 else pow10 (-exponent).toNat
  -- the value on this grid is `num / den`
  let num := r.mid * down
  let den := r.den * up
  let below := num / den
  let lower := r.holds (below * up) down
  let upper := r.holds ((below + 1) * up) down
  if lower && upper then some (if 2 * (num % den) < den then below else below + 1)
  else if lower then some below
  else if upper then some (below + 1)
  else none

/-- The digits and the exponent of the shortest decimal in the interval. -/
def RoundingInterval.shortest (r : RoundingInterval) : Nat × Int :=
  let places := leadingPlaces r.mid r.den
  go places 17 1
where
  go (places : Int) : Nat → Nat → Nat × Int
    | 0, count => (r.mid * pow10 count, 0)
    | fuel + 1, count =>
      match r.onGrid (places - count) with
      | some d => (d, places - count)
      | none => go places fuel (count + 1)

/-- Zeros at the end of the digits moved into the exponent. -/
def dropZeros : Nat → Nat × Int → Nat × Int
  | 0, d => d
  | fuel + 1, (d, e) => if d % 10 == 0 then dropZeros fuel (d / 10, e + 1) else (d, e)

/-- The number `ds * 10 ^ exponent` written with a point and without an exponent. -/
def positional (ds : List Char) (exponent : Int) : List Char :=
  if 0 ≤ exponent then ds ++ List.replicate exponent.toNat '0'
  else
    let behind := (-exponent).toNat
    if ds.length ≤ behind then
      '0' :: '.' :: List.replicate (behind - ds.length) '0' ++ ds
    else ds.take (ds.length - behind) ++ '.' :: ds.drop (ds.length - behind)

/-- The text of a binary number: the shortest digits that read back, positional at every
size, a whole number without a point, and a sign also on zero. -/
def BinaryValue.text : BinaryValue → List Char
  | .nan => ['N', 'a', 'N']
  | .infinity negative => (if negative then ['-'] else []) ++ ['i', 'n', 'f']
  | .finite negative significand exponent lowest =>
    (if negative then ['-'] else []) ++
    if significand == 0 then ['0']
    else
      let (d, e) := dropZeros 20 (roundingInterval significand exponent lowest).shortest
      positional (digits d) e

/-- The text of the sixty-four-bit number with the given bits. -/
def float64Text (bits : UInt64) : String :=
  String.ofList (binary64.value bits.toNat).text

end LiveTrace.Number
