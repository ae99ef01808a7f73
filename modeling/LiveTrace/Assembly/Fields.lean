import LiveTrace.Text.Blank

/-
  Cutting a source text into its top-level parenthesised fields. Between fields only blanks
  and comments may stand; inside a field comments and strings are kept as written, and a
  parenthesis in one of them counts for nothing. The cut is one pass over the characters
  with a mode, a depth and the field being read.
-/
namespace LiveTrace.Assembly

open Text (isAsciiBlank isBlank trimStart)

/-- What the character before belonged to. -/
inductive Mode where
  /-- Ordinary text. -/
  | plain
  /-- A comment up to the end of the line. -/
  | line
  /-- Block comments, `open` of them not yet closed. -/
  | block (opened : Nat)
  /-- A string. -/
  | string
  deriving DecidableEq, Repr

/-- Where a pass stands: the open parentheses, the characters of the field being read (last
one first), and the fields already cut (last one first). -/
structure Cut where
  depth : Nat
  field : List Char
  done : List (List Char)
  deriving DecidableEq, Repr

/-- Keeps characters that stand inside a field and drops those between fields. -/
def Cut.keep (s : Cut) (cs : List Char) : Cut :=
  if s.depth == 0 then s else { s with field := cs.reverse ++ s.field }

/-- An open parenthesis goes one deeper; at depth zero, where no field is being read, it starts
one. -/
def Cut.openParen (s : Cut) : Cut :=
  { s with depth := s.depth + 1, field := '(' :: s.field }

/-- A close parenthesis ends the field it brings back to depth zero; one with nothing open
is an error. -/
def Cut.closeParen (s : Cut) : Option Cut :=
  match s.depth with
  | 0 => none
  | 1 => some { depth := 0, field := [], done := (')' :: s.field).reverse :: s.done }
  | d + 2 => some { s with depth := d + 1, field := ')' :: s.field }

/-- The fields once the text has ended: everything opened must be closed. -/
def Cut.finish (s : Cut) : Option (List (List Char)) :=
  if s.depth == 0 then some s.done.reverse else none

/-- One pass over the rest of a text. -/
def cut : Mode → Cut → List Char → Option (List (List Char))
  | .plain, s, [] => s.finish
  | .line, s, [] => s.finish
  | .block _, _, [] => none
  | .string, _, [] => none
  | .plain, s, ';' :: ';' :: cs => cut .line (s.keep [';', ';']) cs
  | .plain, s, '(' :: ';' :: cs => cut (.block 1) (s.keep ['(', ';']) cs
  | .plain, s, c :: cs =>
    if c == '"' && s.depth != 0 then cut .string (s.keep ['"']) cs
    else if c == '(' then cut .plain s.openParen cs
    else if c == ')' then
      match s.closeParen with
      | some s => cut .plain s cs
      | none => none
    else if isAsciiBlank c then cut .plain (s.keep [c]) cs
    else if s.depth == 0 then none
    else cut .plain (s.keep [c]) cs
  | .line, s, c :: cs =>
    if c == '\n' then cut .plain (s.keep [c]) cs else cut .line (s.keep [c]) cs
  | .block n, s, '(' :: ';' :: cs => cut (.block (n + 1)) (s.keep ['(', ';']) cs
  | .block n, s, ';' :: ')' :: cs =>
    if n ≤ 1 then cut .plain (s.keep [';', ')']) cs
    else cut (.block (n - 1)) (s.keep [';', ')']) cs
  | .block n, s, c :: cs => cut (.block n) (s.keep [c]) cs
  | .string, s, '\\' :: c :: cs => cut .string (s.keep ['\\', c]) cs
  | .string, _, ['\\'] => none
  | .string, s, c :: cs =>
    if c == '"' then cut .plain (s.keep [c]) cs else cut .string (s.keep [c]) cs

/-- The top-level fields of a text, or `none` when it is unbalanced or something else stands
between its fields. -/
def splitChars (text : List Char) : Option (List (List Char)) := cut .plain ⟨0, [], []⟩ text

/-- The top-level fields of a source. -/
def splitFields (source : String) : Option (List String) :=
  (splitChars source.toList).map (·.map String.ofList)

/-- The characters after `word`, if a text begins with it. -/
def after? (word : List Char) (cs : List Char) : Option (List Char) :=
  match word, cs with
  | [], cs => some cs
  | w :: ws, c :: cs => if w == c then after? ws cs else none
  | _ :: _, [] => none

/-- Whether a field is an import: after the parenthesis and blanks comes the word `import`,
and then a blank or a string. -/
def isImport (field : List Char) : Bool :=
  match after? ['i', 'm', 'p', 'o', 'r', 't'] (trimStart (field.drop 1)) with
  | some (c :: _) => isBlank c || c == '"'
  | _ => false

end LiveTrace.Assembly
