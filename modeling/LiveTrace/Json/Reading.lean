import LiveTrace.Json.Basic
import LiveTrace.Number.Binary
import LiveTrace.Number.Power

/-
  Reading values of a known shape out of JSON. A reader is told how many arrays and objects
  may still open, and refuses a value that needs more. A structure is an object with its
  fields by name, in any order, or an array of its fields in order.
-/
namespace LiveTrace.Json

/-- How many arrays and objects may be open at once in a text that is read. -/
def maxLevels : Nat := 127

/-- The text that a string stands for. -/
def text? : Json → Option String
  | .string raw => (unescape? raw).map String.ofList
  | _ => none

def bool? : Json → Option Bool
  | .bool b => some b
  | _ => none

/-- A whole number below `bound`, without sign, fraction or exponent. -/
def natBelow? (bound : Nat) : Json → Option Nat
  | .number t =>
    match Number.decimal? t with
    | some n => if n < bound then some n else none
    | none => none
  | _ => none

def uint32? (v : Json) : Option UInt32 := (natBelow? (Number.pow2 32) v).map UInt32.ofNat

def uint64? (v : Json) : Option UInt64 := (natBelow? (Number.pow2 64) v).map UInt64.ofNat

/-- `null`, or what `read` takes. -/
def nullable? {α : Type} (read : Json → Option α) : Json → Option (Option α)
  | .null => some none
  | v => (read v).map some

/-- The items of an array, read one by one. -/
def list? {α : Type} (read : Nat → Json → Option α) : Nat → Json → Option (List α)
  | levels + 1, .array items => items.mapM (read levels)
  | _, _ => none

/-- The members of an object by the texts of their keys. -/
def members? (members : List (List Char × Json)) : Option (List (String × Json)) :=
  members.mapM fun m => (unescape? m.1).map fun k => (String.ofList k, m.2)

/-- The fields given for a structure. -/
structure Fields where
  /-- Whether they are given by name, so that one that may be left out can be. -/
  named : Bool
  values : List (String × Json)

/-- Whether some name of `names` comes twice among the keys. -/
def hasTwice (names : List String) (values : List (String × Json)) : Bool :=
  names.any fun n => 1 < (values.filter (·.1 == n)).length

/-- The fields given in an object: none of `names` comes twice, other names mean nothing. -/
def namedFields? (names : List String) (members : List (List Char × Json)) : Option Fields :=
  match members? members with
  | some values => if hasTwice names values then none else some ⟨true, values⟩
  | none => none

/-- The fields given in an array: one after the other, and no more than there are names. -/
def placedFields? (names : List String) (items : List Json) : Option Fields :=
  if items.length ≤ names.length then some ⟨false, names.zip items⟩ else none

/-- The fields given for a structure with the fields `names`, and the levels left for them. -/
def fields? (names : List String) : Nat → Json → Option (Nat × Fields)
  | levels + 1, .object ms => (namedFields? names ms).map (levels, ·)
  | levels + 1, .array items => (placedFields? names items).map (levels, ·)
  | _, _ => none

namespace Fields

/-- What is given for a field. -/
def get? (f : Fields) (name : String) : Option Json :=
  (f.values.find? (·.1 == name)).map (·.2)

/-- A field that has to be given. -/
def required {α : Type} (f : Fields) (name : String) (read : Json → Option α) : Option α :=
  (f.get? name).bind read

/-- A field that may be `null`, and by name also left out. -/
def optional {α : Type} (f : Fields) (name : String) (read : Json → Option α) :
    Option (Option α) :=
  match f.get? name with
  | some v => nullable? read v
  | none => if f.named then some none else none

/-- A field that has a value when it is not given. -/
def withDefault {α : Type} (f : Fields) (name : String) (default : α) (read : Json → Option α) :
    Option α :=
  match f.get? name with
  | some v => read v
  | none => some default

end Fields

/-- The name of a choice without content: a string, or an object whose one member is the
name with `null`. -/
def choice? : Nat → Json → Option String
  | _ + 1, .object [(key, .null)] => text? (.string key)
  | _, v => text? v

/-- The digits at the front that a significand below 2 ^ 64 has room for, added to it, and how
many digits there is no room for. -/
def takeDigits (significand : Nat) : List Char → Nat × Nat
  | [] => (significand, 0)
  | c :: cs =>
    let next := significand * 10 + (Number.digit? c).getD 0
    if next < Number.pow2 64 then takeDigits next cs else (significand, (c :: cs).length)

/-- What is kept of a number: a significand and a power of ten. Digits that the significand has
no room for still count as places in front of the point, and not at all behind it. -/
def keptParts (t : List Char) : Nat × Int :=
  let unsigned := match t with
    | '-' :: rest => rest
    | _ => t
  let isMark (c : Char) : Bool := c == 'e' || c == 'E'
  let mantissa := unsigned.takeWhile (!isMark ·)
  let exponent := (unsigned.dropWhile (!isMark ·)).drop 1
  let whole := mantissa.takeWhile (· != '.')
  let fraction := (mantissa.dropWhile (· != '.')).drop 1
  let power : Int := match exponent with
    | '-' :: ds => -((Number.decimal? ds).getD 0 : Nat)
    | '+' :: ds => ((Number.decimal? ds).getD 0 : Nat)
    | ds => ((Number.decimal? ds).getD 0 : Nat)
  let (front, places) := takeDigits 0 whole
  let (significand, dropped) := takeDigits front fraction
  (significand, power + places - (fraction.length - dropped : Nat))

/-- The greatest power of ten that is a finite number of sixty-four bits. -/
def maxPower : Int := 308

/-- Whether a number is not too large for sixty-four bits of floating point: significand and
power are rounded each by itself, and then their product. -/
def isFinite (t : List Char) : Bool :=
  let (significand, power) := keptParts t
  let format := Number.binary64
  significand == 0 || power < 0 ||
  (power ≤ maxPower &&
    match format.round? false significand 1, format.ofDecimal? false 1 power with
    | some a, some b => (format.product? a b).isSome
    | _, _ => false)

mutual

/-- Whether every string in a value stands for a text and every number is finite. -/
def isSound : Json → Bool
  | .null => true
  | .bool _ => true
  | .number t => isFinite t
  | .string raw => (unescape? raw).isSome
  | .array items => allSound items
  | .object members => allMembersSound members

def allSound : List Json → Bool
  | [] => true
  | v :: rest => isSound v && allSound rest

def allMembersSound : List (List Char × Json) → Bool
  | [] => true
  | (k, v) :: rest => (unescape? k).isSome && isSound v && allMembersSound rest

end

/-- Whether a value can be taken as it is, before its shape is known. -/
def isTakable (levels : Nat) (v : Json) : Bool := v.depth ≤ levels && v.isSound

/-- What `read` makes of a text. -/
def readText? {α : Type} (read : Nat → Json → Option α) (text : String) : Option α :=
  (parse? text.toList).bind (read maxLevels)

end LiveTrace.Json
