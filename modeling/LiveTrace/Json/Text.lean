import LiveTrace.Number.Digits

/-
  The text between the quotes of a JSON string: `escape` writes it, `unescape?` reads it.
  Only quotes, backslashes and control characters are escaped; every escape is read, and one
  half of a surrogate pair without the other is no text.
-/
namespace LiveTrace.Json

/-- One character inside quotes. -/
def escapeChar (c : Char) : List Char :=
  if c == '"' then ['\\', '"']
  else if c == '\\' then ['\\', '\\']
  else if c == '\x08' then ['\\', 'b']
  else if c == '\x0c' then ['\\', 'f']
  else if c == '\n' then ['\\', 'n']
  else if c == '\r' then ['\\', 'r']
  else if c == '\t' then ['\\', 't']
  else if c.toNat < 0x20 then ['\\', 'u'] ++ Number.hexPadded 4 c.toNat
  else [c]

/-- A text inside quotes. -/
def escape (cs : List Char) : List Char := cs.flatMap escapeChar

/-- The character a one-letter escape stands for. -/
def shortEscape? (c : Char) : Option Char :=
  if c == '"' || c == '\\' || c == '/' then some c
  else if c == 'b' then some '\x08'
  else if c == 'f' then some '\x0c'
  else if c == 'n' then some '\n'
  else if c == 'r' then some '\r'
  else if c == 't' then some '\t'
  else none

/-- The value of four hexadecimal digits. -/
def hex4? (a b c d : Char) : Option Nat := Number.hexadecimal? [a, b, c, d]

/-- The first half of a surrogate pair. -/
def isHighSurrogate (n : Nat) : Bool := 0xD800 ≤ n && n < 0xDC00

/-- The second half of a surrogate pair. -/
def isLowSurrogate (n : Nat) : Bool := 0xDC00 ≤ n && n < 0xE000

/-- The characters that the text between quotes stands for. -/
def unescape? : List Char → Option (List Char)
  | [] => some []
  | '\\' :: 'u' :: a :: b :: c :: d :: '\\' :: 'u' :: e :: f :: g :: h :: rest =>
    match hex4? a b c d, hex4? e f g h with
    | some m, some n =>
      if isHighSurrogate m then
        if isLowSurrogate n then
          (unescape? rest).map (Char.ofNat (0x10000 + (m - 0xD800) * 0x400 + (n - 0xDC00)) :: ·)
        else none
      else if isLowSurrogate m then none
      else (unescape? ('\\' :: 'u' :: e :: f :: g :: h :: rest)).map (Char.ofNat m :: ·)
    | _, _ => none
  | '\\' :: 'u' :: a :: b :: c :: d :: rest =>
    match hex4? a b c d with
    | some m =>
      if isHighSurrogate m || isLowSurrogate m then none
      else (unescape? rest).map (Char.ofNat m :: ·)
    | none => none
  | '\\' :: c :: rest =>
    match shortEscape? c with
    | some c => (unescape? rest).map (c :: ·)
    | none => none
  | ['\\'] => none
  | c :: rest => (unescape? rest).map (c :: ·)

end LiveTrace.Json
