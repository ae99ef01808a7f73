import LiveTrace.Number.Digits

/-
  Run ids: 128 bits as hexadecimal digits in groups of 8, 4, 4, 4 and 12. The ids given out
  are told apart by their last group. Reading takes the same form in either case, alone, in
  braces or behind `urn:uuid:` in any mix of cases, and also the digits without hyphens.
-/
namespace LiveTrace.RunId

/-- The groups that all ids given out have in common. -/
def stem : String := "6f1d2c3b-58a7-4e09-9c41-"

/-- The `n`-th id given out. -/
def ofIndex (n : Nat) : String := stem ++ String.ofList (Number.hexPadded 12 n)

def isHex (c : Char) : Bool := (Number.hexDigit? c).isSome

/-- Hexadecimal digits in groups of 8, 4, 4, 4 and 12 with hyphens between them. -/
def isHyphenated (cs : List Char) : Bool :=
  cs.length == 36 &&
  (cs.zipIdx).all fun (c, i) =>
    if i == 8 || i == 13 || i == 18 || i == 23 then c == '-' else isHex c

/-- The schema that an id may have in front of it, in any mix of cases. -/
def schema : List Char := "urn:uuid:".toList

/-- Whether some characters are the schema and then an id with hyphens. -/
def hasSchema (cs : List Char) : Bool :=
  (cs.take schema.length).map Char.toLower == schema && isHyphenated (cs.drop schema.length)

/-- Whether a name is an id in one of its forms. -/
def isId (name : String) : Bool :=
  let cs := name.toList
  (cs.length == 32 && cs.all isHex) || isHyphenated cs ||
  (cs.head? == some '{' && cs.getLast? == some '}' && isHyphenated (cs.drop 1).dropLast) ||
  hasSchema cs

end LiveTrace.RunId
