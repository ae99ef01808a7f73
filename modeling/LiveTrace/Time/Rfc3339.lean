import LiveTrace.Number.Digits
import LiveTrace.Number.Power
import LiveTrace.Text.Blank
import LiveTrace.Time.Timestamp

/-
  Timestamps as text. Writing gives UTC with as many decimals of a second as are needed, in
  groups of three. Reading takes any offset, one-digit fields, signed years and blanks
  between the parts.
-/
namespace LiveTrace.Timestamp

open Text (trimStart isBlank)

/-- The value of up to `most` digits at the front of a text, at least one, and what follows. -/
def number? (most : Nat) (cs : List Char) : Option (Nat × List Char) :=
  let ds := (cs.take most).takeWhile fun c => (Number.digit? c).isSome
  (Number.decimal? ds).map fun n => (n, cs.drop ds.length)

/-- A field of one or two digits, with blanks in front. -/
def field? (cs : List Char) : Option (Int × List Char) :=
  (number? 2 (trimStart cs)).map fun r => ((r.1 : Int), r.2)

/-- A year: up to four digits, or a sign and any number of them. -/
def year? (cs : List Char) : Option (Int × List Char) :=
  match trimStart cs with
  | '-' :: rest => (number? rest.length rest).map fun r => (-(r.1 : Int), r.2)
  | '+' :: rest => (number? rest.length rest).map fun r => ((r.1 : Int), r.2)
  | rest => (number? 4 rest).map fun r => ((r.1 : Int), r.2)

/-- What follows a sign between two fields, which may have blanks in front. -/
def afterMark? (mark : Char) (cs : List Char) : Option (List Char) :=
  match trimStart cs with
  | c :: rest => if c == mark then some rest else none
  | [] => none

def date? (cs : List Char) : Option (Date × List Char) := do
  let (year, cs) ← year? cs
  let cs ← afterMark? '-' cs
  let (month, cs) ← field? cs
  let cs ← afterMark? '-' cs
  let (day, cs) ← field? cs
  let date : Date := ⟨year, month, day⟩
  if date.isValid && date.inRange then some (date, cs) else none

/-- The decimals of a second, as nanoseconds; digits behind the ninth mean nothing. -/
def fraction? (cs : List Char) : Option (Int × List Char) :=
  match cs with
  | '.' :: rest =>
    (number? 9 rest).map fun r =>
      let used := rest.length - r.2.length
      ((r.1 * Number.pow10 (9 - used) : Nat), r.2.dropWhile fun c => (Number.digit? c).isSome)
  | _ => some (0, cs)

/-- The second of the day and the nanoseconds. The sixtieth second of a minute is a leap second. -/
def time? (cs : List Char) : Option ((Int × Int) × List Char) := do
  let (hour, cs) ← field? cs
  let cs ← afterMark? ':' cs
  let (minute, cs) ← field? cs
  let cs ← afterMark? ':' cs
  let (second, cs) ← field? cs
  let (nanos, cs) ← fraction? cs
  if hour < 24 && minute < 60 && second ≤ 60 then
    let start := hour * 3600 + minute * 60
    if second == 60 then some ((start + 59, nanosPerSecond + nanos), cs)
    else some ((start + second, nanos), cs)
  else none

/-- Exactly two digits. -/
def twoDigits? : List Char → Option (Int × List Char)
  | a :: b :: rest => (Number.decimal? [a, b]).map fun n => ((n : Int), rest)
  | _ => none

/-- The sign of an offset. -/
def sign? : Char → Option Int
  | '+' => some 1
  | '-' => some (-1)
  | '\u2212' => some (-1)
  | _ => none

/-- Hours and minutes of an offset, in seconds; colons and blanks may stand between them. -/
def hoursMinutes? (cs : List Char) : Option (Int × List Char) := do
  let (hours, cs) ← twoDigits? cs
  let (minutes, cs) ← twoDigits? (cs.dropWhile fun c => c == ':' || isBlank c)
  if minutes < 60 then some (hours * 3600 + minutes * 60, cs) else none

/-- An offset from UTC in seconds: `Z`, `UTC`, or hours and minutes. -/
def offset? (cs : List Char) : Option (Int × List Char) :=
  match cs with
  | u :: t :: c :: rest =>
    if u.toUpper == 'U' && t.toUpper == 'T' && c.toUpper == 'C' then some (0, rest)
    else if u == 'Z' || u == 'z' then some (0, t :: c :: rest)
    else (sign? u).bind fun s => (hoursMinutes? (t :: c :: rest)).map fun r => (s * r.1, r.2)
  | z :: rest =>
    if z == 'Z' || z == 'z' then some (0, rest) else none
  | [] => none

/-- The moment that a text gives. -/
def ofText? (text : String) : Option Timestamp := do
  let (date, cs) ← date? text.toList
  let cs ← match cs with
    | c :: rest => if c == 'T' || c == 't' || c == ' ' then some rest else none
    | [] => none
  let ((second, nanos), cs) ← time? cs
  let (offset, cs) ← offset? (trimStart cs)
  if trimStart cs != [] || offset ≤ -secondsPerDay || secondsPerDay ≤ offset then none
  else
    let t := earlier ⟨date.toDay, second, nanos⟩ offset
    if (Date.ofDay t.day).inRange then some t else none

/-- A number of two places. -/
def two (n : Int) : List Char := Number.padded 2 n.toNat

/-- A year: four places, and a sign in front when it does not fit them. -/
def yearText (year : Int) : List Char :=
  if year < 0 then '-' :: Number.padded 4 (-year).toNat
  else if 9999 < year then '+' :: Number.padded 4 year.toNat
  else Number.padded 4 year.toNat

/-- The decimals of a second in the fewest groups of three. -/
def fractionText (nanos : Int) : List Char :=
  if nanos == 0 then []
  else if nanos % 1000000 == 0 then '.' :: Number.padded 3 (nanos / 1000000).toNat
  else if nanos % 1000 == 0 then '.' :: Number.padded 6 (nanos / 1000).toNat
  else '.' :: Number.padded 9 nanos.toNat

/-- A moment in UTC. -/
def text (t : Timestamp) : String :=
  let date := Date.ofDay t.day
  let leap := nanosPerSecond ≤ t.nanos
  let second := t.second % 60 + if leap then 1 else 0
  let nanos := if leap then t.nanos - nanosPerSecond else t.nanos
  String.ofList (yearText date.year ++ '-' :: two date.month ++ '-' :: two date.dayOfMonth ++
    'T' :: two (t.second / 3600) ++ ':' :: two (t.second / 60 % 60) ++ ':' :: two second ++
    fractionText nanos ++ ['Z'])

end LiveTrace.Timestamp
