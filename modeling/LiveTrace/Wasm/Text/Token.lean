import LiveTrace.Number.Digits
import LiveTrace.Text.Utf8

/-
  WebAssembly text as tokens: parentheses, words and strings. A word is a run of characters
  without blanks, parentheses and quotes, and may not touch a string; a name may also be given
  as a string behind its dollar sign. Comments nest, and neither they nor strings may hold
  characters that make text look other than it is. Annotations, which are lists with an at sign
  right behind their parenthesis, mean nothing.
-/
namespace LiveTrace.Wasm.Text

inductive Token where
  | openParen
  | closeParen
  /-- The parenthesis that opens an annotation. -/
  | openNote
  | word (cs : List Char)
  /-- The bytes that a string stands for. -/
  | string (bytes : List UInt8)
  deriving DecidableEq, Repr

/-- The characters of words. -/
def isWordChar (c : Char) : Bool :=
  0x21 ≤ c.toNat && c.toNat ≤ 0x7E &&
  !(c == '"' || c == '(' || c == ')' || c == ',' || c == ';' || c == '[' || c == ']' ||
    c == '{' || c == '}')

def isGap (c : Char) : Bool := c == ' ' || c == '\t' || c == '\n' || c == '\r'

/-- Characters that change the direction of the text around them. -/
def isDisguise (c : Char) : Bool :=
  let n := c.toNat
  n == 0x202A || n == 0x202B || n == 0x202D || n == 0x202E || (0x2066 ≤ n && n ≤ 0x2069) ||
  n == 0x206C

/-- The characters a string may hold as they are. -/
def isStringChar (c : Char) : Bool := 0x20 ≤ c.toNat && c.toNat != 0x7F && !isDisguise c

/-- What the character before belonged to. -/
inductive Mode where
  /-- Nothing; `glued` tells that a string has just ended. -/
  | gap (glued : Bool)
  | line
  | block (opened : Nat)
  /-- A word, last character first. -/
  | word (read : List Char)
  /-- A string, last byte first; `named` tells that it is a name. -/
  | string (named : Bool) (read : List UInt8)
  /-- An escape by number inside a string: its value so far, and whether its last character is an
  underscore. -/
  | number (named : Bool) (read : List UInt8) (value : Option Nat) (joined : Bool)
  deriving DecidableEq, Repr

/-- The byte an escape of one letter stands for. -/
def shortEscape? (c : Char) : Option UInt8 :=
  if c == 't' then some 9
  else if c == 'n' then some 10
  else if c == 'r' then some 13
  else if c == '"' then some 0x22
  else if c == '\'' then some 0x27
  else if c == '\\' then some 0x5C
  else none

/-- The bytes of a character, last one first. -/
def reversedBytes (c : Char) : List UInt8 := (String.utf8EncodeChar c).reverse

/-- The token that a string is, or the name that it gives. A name has characters. -/
def stringToken? (named : Bool) (bytes : List UInt8) : Option Token :=
  if named then
    match Utf8.decode bytes with
    | .ok (c :: cs) => some (.word ('$' :: c :: cs))
    | _ => none
  else some (.string bytes)

/-- Some more characters, after the tokens `done` (last one first). -/
def scan : Mode → List Token → List Char → Option (List Token)
  | .gap _, done, [] => some done.reverse
  | .line, done, [] => some done.reverse
  | .word read, done, [] => some (.word read.reverse :: done).reverse
  | .block _, _, [] => none
  | .string _ _, _, [] => none
  | .number _ _ _ _, _, [] => none
  | .line, done, c :: cs =>
    if c == '\n' || c == '\r' then scan (.gap false) done cs
    else if isDisguise c then none
    else scan .line done cs
  | .block n, done, '(' :: ';' :: cs => scan (.block (n + 1)) done cs
  | .block n, done, ';' :: ')' :: cs =>
    if n ≤ 1 then scan (.gap false) done cs else scan (.block (n - 1)) done cs
  | .block n, done, c :: cs => if isDisguise c then none else scan (.block n) done cs
  | .string named read, done, '\\' :: 'u' :: '{' :: cs =>
    scan (.number named read none false) done cs
  | .string named read, done, '\\' :: a :: cs =>
    match shortEscape? a with
    | some b => scan (.string named (b :: read)) done cs
    | none =>
      match Number.hexDigit? a, cs with
      | some m, b :: cs =>
        match Number.hexDigit? b with
        | some n => scan (.string named (UInt8.ofNat (16 * m + n) :: read)) done cs
        | none => none
      | _, _ => none
  | .string named read, done, c :: cs =>
    if c == '"' then
      match stringToken? named read.reverse with
      | some t => scan (.gap true) (t :: done) cs
      | none => none
    else if isStringChar c && c != '\\' then
      scan (.string named (reversedBytes c ++ read)) done cs
    else none
  | .number named read value joined, done, c :: cs =>
    match Number.hexDigit? c, value with
    | some d, none => scan (.number named read (some d) false) done cs
    | some d, some n =>
      if n < 0x1000000 then scan (.number named read (some (16 * n + d)) false) done cs else none
    | none, some n =>
      if c == '_' then scan (.number named read value true) done cs
      else if c == '}' && !joined && n.isValidChar then
        scan (.string named (reversedBytes (Char.ofNat n) ++ read)) done cs
      else none
    | none, none => none
  | .gap _, done, ';' :: ';' :: cs => scan .line done cs
  | .gap _, done, '(' :: ';' :: cs => scan (.block 1) done cs
  | .gap _, done, '(' :: '@' :: c :: cs =>
    if isWordChar c then scan (.word [c, '@']) (.openNote :: done) cs else none
  | .gap glued, done, c :: cs =>
    if isGap c then scan (.gap false) done cs
    else if c == '(' then scan (.gap false) (.openParen :: done) cs
    else if c == ')' then scan (.gap false) (.closeParen :: done) cs
    else if glued then none
    else if c == '"' then scan (.string false []) done cs
    else if isWordChar c then scan (.word [c]) done cs
    else none
  | .word read, done, ';' :: ';' :: cs => scan .line (.word read.reverse :: done) cs
  | .word read, done, '(' :: ';' :: cs => scan (.block 1) (.word read.reverse :: done) cs
  | .word read, done, '(' :: '@' :: c :: cs =>
    if isWordChar c then scan (.word [c, '@']) (.openNote :: .word read.reverse :: done) cs
    else none
  | .word ['$'], done, '"' :: cs => scan (.string true []) done cs
  | .word read, done, c :: cs =>
    if isWordChar c then scan (.word (c :: read)) done cs
    else if isGap c then scan (.gap false) (.word read.reverse :: done) cs
    else if c == '(' then scan (.gap false) (.openParen :: .word read.reverse :: done) cs
    else if c == ')' then scan (.gap false) (.closeParen :: .word read.reverse :: done) cs
    else none

/-- The tokens of a text. -/
def tokens? (text : List Char) : Option (List Token) := scan (.gap false) [] text

/-- A text as a tree. -/
inductive Node where
  | word (cs : List Char)
  | string (bytes : List UInt8)
  | list (items : List Node)

/-- The tokens outside of annotations; `opened` parentheses of one are still open. -/
def withoutNotes : Nat → List Token → Option (List Token)
  | 0, [] => some []
  | _ + 1, [] => none
  | 0, .openNote :: ts => withoutNotes 1 ts
  | 0, t :: ts => (withoutNotes 0 ts).map (t :: ·)
  | opened + 1, t :: ts =>
    match t with
    | .openParen | .openNote => withoutNotes (opened + 2) ts
    | .closeParen => withoutNotes opened ts
    | _ => withoutNotes (opened + 1) ts

/-- The trees that tokens make up: `read` holds those of the innermost open parenthesis and
`stack` those around it, last one first. -/
def build (read : List Node) (stack : List (List Node)) : List Token → Option (List Node)
  | [] => if stack.isEmpty then some read.reverse else none
  | .openParen :: ts | .openNote :: ts => build [] (read :: stack) ts
  | .closeParen :: ts =>
    match stack with
    | outer :: stack => build (.list read.reverse :: outer) stack ts
    | [] => none
  | .word cs :: ts => build (.word cs :: read) stack ts
  | .string bytes :: ts => build (.string bytes :: read) stack ts

/-- The trees of a text. -/
def trees? (text : List Char) : Option (List Node) :=
  ((tokens? text).bind (withoutNotes 0)).bind (build [] [])

end LiveTrace.Wasm.Text
