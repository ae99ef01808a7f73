/-
  Natural numbers in decimal and hexadecimal: the value of a run of digits, the digits of a
  value, and the unsigned reading with an optional plus sign and an upper bound.
-/
namespace LiveTrace.Number

/-- The value of a decimal digit. -/
def digit? (c : Char) : Option Nat :=
  if '0' ≤ c ∧ c ≤ '9' then some (c.toNat - '0'.toNat) else none

/-- The value of a hexadecimal digit of either case. -/
def hexDigit? (c : Char) : Option Nat :=
  if '0' ≤ c ∧ c ≤ '9' then some (c.toNat - '0'.toNat)
  else if 'a' ≤ c ∧ c ≤ 'f' then some (c.toNat - 'a'.toNat + 10)
  else if 'A' ≤ c ∧ c ≤ 'F' then some (c.toNat - 'A'.toNat + 10)
  else none

/-- The value of the digits `cs` after digits worth `acc`; `none` at the first character that
is no digit. -/
def foldDigits (base : Nat) (digit : Char → Option Nat) (acc : Nat) : List Char → Option Nat
  | [] => some acc
  | c :: cs =>
    match digit c with
    | some d => foldDigits base digit (acc * base + d) cs
    | none => none

/-- A run of one or more decimal digits. -/
def decimal? (cs : List Char) : Option Nat :=
  if cs.isEmpty then none else foldDigits 10 digit? 0 cs

/-- A run of one or more hexadecimal digits. -/
def hexadecimal? (cs : List Char) : Option Nat :=
  if cs.isEmpty then none else foldDigits 16 hexDigit? 0 cs

/-- An unsigned number below `bound`: one plus sign or none, then decimal digits. -/
def unsigned? (bound : Nat) (cs : List Char) : Option Nat :=
  let digits := match cs with
    | '+' :: rest => rest
    | _ => cs
  match decimal? digits with
  | some n => if n < bound then some n else none
  | none => none

/-- A number in decimal. -/
def digits (n : Nat) : List Char := Nat.toDigits 10 n

/-- A number in lower-case hexadecimal. -/
def hexDigits (n : Nat) : List Char := Nat.toDigits 16 n

/-- A number in decimal, with zeros in front up to `width` places. -/
def padded (width n : Nat) : List Char :=
  let ds := digits n
  List.replicate (width - ds.length) '0' ++ ds

/-- A number in hexadecimal, with zeros in front up to `width` places. -/
def hexPadded (width n : Nat) : List Char :=
  let ds := hexDigits n
  List.replicate (width - ds.length) '0' ++ ds

end LiveTrace.Number
