import LiveTrace.Number.Digits

/-
  JSON as tokens. Reading is one pass over the characters; a string keeps the text between
  its quotes and a number its digits as written, because what they are worth depends on who
  asks. Blanks stand only between tokens.
-/
namespace LiveTrace.Json

inductive Token where
  | openBrace | closeBrace
  | openBracket | closeBracket
  | colon | comma
  | null | true | false
  /-- A number as written. -/
  | number (text : List Char)
  /-- What stands between the quotes of a string, escapes and all. -/
  | string (raw : List Char)
  deriving DecidableEq, Repr

/-- The blanks of JSON. -/
def isGap (c : Char) : Bool := c == ' ' || c == '\n' || c == '\t' || c == '\r'

/-- The characters of words and numbers. -/
def isWordChar (c : Char) : Bool :=
  ('a' ≤ c && c ≤ 'z') || ('A' ≤ c && c ≤ 'Z') || ('0' ≤ c && c ≤ '9') ||
  c == '+' || c == '-' || c == '.'

def isDigit (c : Char) : Bool := '0' ≤ c && c ≤ '9'

/-- Digits, as many as there are. -/
def skipDigits (cs : List Char) : List Char := cs.dropWhile isDigit

/-- What follows a whole part: `0`, or digits that do not start with it. -/
def afterWhole : List Char → Option (List Char)
  | '0' :: cs => some cs
  | c :: cs => if isDigit c then some (skipDigits cs) else none
  | [] => none

/-- What follows a fraction, if there is one. -/
def afterFraction : List Char → Option (List Char)
  | '.' :: c :: cs => if isDigit c then some (skipDigits cs) else none
  | '.' :: [] => none
  | cs => some cs

/-- What follows one or more digits. -/
def afterDigits : List Char → Option (List Char)
  | c :: cs => if isDigit c then some (skipDigits cs) else none
  | [] => none

/-- What follows an exponent, if there is one. -/
def afterExponent : List Char → Option (List Char)
  | c :: cs =>
    if c == 'e' || c == 'E' then
      match cs with
      | '+' :: rest => afterDigits rest
      | '-' :: rest => afterDigits rest
      | rest => afterDigits rest
    else some (c :: cs)
  | [] => some []

/-- Whether a word is a number. -/
def isNumber (word : List Char) : Bool :=
  let unsigned := match word with
    | '-' :: rest => rest
    | _ => word
  match afterWhole unsigned with
  | none => false
  | some rest => match afterFraction rest with
    | none => false
    | some rest => afterExponent rest == some []

/-- The token that a word is. -/
def Token.ofWord? (word : List Char) : Option Token :=
  if word == ['n', 'u', 'l', 'l'] then some .null
  else if word == ['t', 'r', 'u', 'e'] then some .true
  else if word == ['f', 'a', 'l', 's', 'e'] then some .false
  else if isNumber word then some (.number word)
  else none

/-- What a scanner is in the middle of. -/
inductive Scanning where
  | gap
  /-- A word, last character first. -/
  | word (read : List Char)
  /-- A string, last character first. -/
  | string (read : List Char)
  /-- A string, after a backslash. -/
  | escape (read : List Char)
  /-- A string, with some hexadecimal digits of an escape still to come. -/
  | hex (read : List Char) (missing : Nat)
  deriving DecidableEq, Repr

/-- The tokens so far, last one first, and what comes next. -/
structure Scanner where
  tokens : List Token := []
  scanning : Scanning := .gap
  deriving DecidableEq, Repr

/-- The characters that may follow a backslash, but for `u`. -/
def isShortEscape (c : Char) : Bool :=
  c == '"' || c == '\\' || c == '/' || c == 'b' || c == 'f' || c == 'n' || c == 'r' || c == 't'

/-- One character between tokens. -/
def scanGap (tokens : List Token) (c : Char) : Option Scanner :=
  if isGap c then some ⟨tokens, .gap⟩
  else if c == '"' then some ⟨tokens, .string []⟩
  else if c == '{' then some ⟨.openBrace :: tokens, .gap⟩
  else if c == '}' then some ⟨.closeBrace :: tokens, .gap⟩
  else if c == '[' then some ⟨.openBracket :: tokens, .gap⟩
  else if c == ']' then some ⟨.closeBracket :: tokens, .gap⟩
  else if c == ':' then some ⟨.colon :: tokens, .gap⟩
  else if c == ',' then some ⟨.comma :: tokens, .gap⟩
  else if isWordChar c then some ⟨tokens, .word [c]⟩
  else none

/-- One more character. -/
def Scanner.step (s : Scanner) (c : Char) : Option Scanner :=
  match s.scanning with
  | .gap => scanGap s.tokens c
  | .word read =>
    if isWordChar c then some ⟨s.tokens, .word (c :: read)⟩
    else match Token.ofWord? read.reverse with
      | some t => scanGap (t :: s.tokens) c
      | none => none
  | .string read =>
    if c == '"' then some ⟨.string read.reverse :: s.tokens, .gap⟩
    else if c == '\\' then some ⟨s.tokens, .escape (c :: read)⟩
    else if c.toNat < 0x20 then none
    else some ⟨s.tokens, .string (c :: read)⟩
  | .escape read =>
    if isShortEscape c then some ⟨s.tokens, .string (c :: read)⟩
    else if c == 'u' then some ⟨s.tokens, .hex (c :: read) 4⟩
    else none
  | .hex read missing =>
    match Number.hexDigit? c with
    | none => none
    | some _ =>
      if missing ≤ 1 then some ⟨s.tokens, .string (c :: read)⟩
      else some ⟨s.tokens, .hex (c :: read) (missing - 1)⟩

/-- Some more characters. -/
def Scanner.run (s : Scanner) : List Char → Option Scanner
  | [] => some s
  | c :: cs => match s.step c with
    | some s => run s cs
    | none => none

/-- The tokens, once the text has ended. -/
def Scanner.finish (s : Scanner) : Option (List Token) :=
  match s.scanning with
  | .gap => some s.tokens.reverse
  | .word read => (Token.ofWord? read.reverse).map fun t => (t :: s.tokens).reverse
  | _ => none

/-- The tokens of a text. -/
def tokens? (text : List Char) : Option (List Token) := (Scanner.run {} text).bind Scanner.finish

end LiveTrace.Json
