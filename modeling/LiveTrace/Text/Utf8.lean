/-
  UTF-8. `decode` reads bytes as characters and names the first place where they stop being
  UTF-8: how many bytes were good, and how many bytes the broken character spoils, or none
  when the text ends inside a character. `encode` writes characters as bytes.
-/
namespace LiveTrace.Utf8

/-- Why bytes are not UTF-8. -/
structure Error where
  /-- Bytes before the broken character. -/
  validUpTo : Nat
  /-- Bytes the broken character spoils; `none` when the text ends inside it. -/
  spoiled : Option Nat
  deriving DecidableEq, Repr

def Error.message (e : Error) : String :=
  match e.spoiled with
  | some n => s!"invalid utf-8 sequence of {n} bytes from index {e.validUpTo}"
  | none => s!"incomplete utf-8 byte sequence from index {e.validUpTo}"

/-- A byte that continues a character. -/
def isTail (b : UInt8) : Bool := 0x80 ≤ b && b ≤ 0xBF

/-- The least and greatest second byte after first byte `a` of a longer character. -/
def secondRange (a : UInt8) : UInt8 × UInt8 :=
  if a == 0xE0 then (0xA0, 0xBF)
  else if a == 0xED then (0x80, 0x9F)
  else if a == 0xF0 then (0x90, 0xBF)
  else if a == 0xF4 then (0x80, 0x8F)
  else (0x80, 0xBF)

def isSecond (a b : UInt8) : Bool := (secondRange a).1 ≤ b && b ≤ (secondRange a).2

/-- How many bytes the character that starts with `a` has; zero when none starts so. -/
def width (a : UInt8) : Nat :=
  if a ≤ 0x7F then 1
  else if 0xC2 ≤ a && a ≤ 0xDF then 2
  else if 0xE0 ≤ a && a ≤ 0xEF then 3
  else if 0xF0 ≤ a && a ≤ 0xF4 then 4
  else 0

def char2 (a b : UInt8) : Char := Char.ofNat ((a.toNat % 32) * 64 + b.toNat % 64)

def char3 (a b c : UInt8) : Char :=
  Char.ofNat ((a.toNat % 16) * 4096 + (b.toNat % 64) * 64 + c.toNat % 64)

def char4 (a b c d : UInt8) : Char :=
  Char.ofNat ((a.toNat % 8) * 262144 + (b.toNat % 64) * 4096 + (c.toNat % 64) * 64 + d.toNat % 64)

/-- What the front of a text is: its end, a character with the bytes after it, or a break
that spoils some bytes. -/
inductive Front where
  | empty
  | char (c : Char) (used : Nat) (rest : List UInt8)
  | broken (spoiled : Option Nat)

/-- The first character of a text. -/
def front : List UInt8 → Front
  | [] => .empty
  | a :: rest =>
    match width a with
    | 1 => .char (Char.ofNat a.toNat) 1 rest
    | 2 =>
      match rest with
      | [] => .broken none
      | b :: rest => if isTail b then .char (char2 a b) 2 rest else .broken (some 1)
    | 3 =>
      match rest with
      | [] => .broken none
      | b :: rest =>
        if !isSecond a b then .broken (some 1)
        else match rest with
          | [] => .broken none
          | c :: rest => if isTail c then .char (char3 a b c) 3 rest else .broken (some 2)
    | 4 =>
      match rest with
      | [] => .broken none
      | b :: rest =>
        if !isSecond a b then .broken (some 1)
        else match rest with
          | [] => .broken none
          | c :: rest =>
            if !isTail c then .broken (some 2)
            else match rest with
              | [] => .broken none
              | d :: rest => if isTail d then .char (char4 a b c d) 4 rest else .broken (some 3)
    | _ => .broken (some 1)

/-- A character takes bytes off the front. -/
theorem length_of_front_char {bs rest : List UInt8} {c : Char} {n : Nat}
    (h : front bs = .char c n rest) : rest.length < bs.length := by
  cases bs with
  | nil => simp [front] at h
  | cons a bs =>
    simp only [front] at h
    repeat' split at h
    all_goals first
      | (cases h; simp; done)
      | (cases h; simp; omega)
      | (cases h)

/-- The characters of a text whose first byte has index `start`. -/
def decodeFrom (start : Nat) (bs : List UInt8) : Except Error (List Char) :=
  match _h : front bs with
  | .empty => .ok []
  | .broken spoiled => .error ⟨start, spoiled⟩
  | .char c used rest =>
    match decodeFrom (start + used) rest with
    | .ok cs => .ok (c :: cs)
    | .error e => .error e
termination_by bs.length
decreasing_by exact length_of_front_char _h

/-- The characters that bytes encode, or the first place where they encode none. -/
def decode (bs : List UInt8) : Except Error (List Char) := decodeFrom 0 bs

/-- The bytes of a text. -/
def encode (cs : List Char) : List UInt8 := cs.flatMap String.utf8EncodeChar

/-- Reads bytes as characters, each broken character as one U+FFFD. -/
def decodeLossy (bs : List UInt8) : List Char :=
  go bs.length bs
where
  go : Nat → List UInt8 → List Char
    | 0, _ => []
    | fuel + 1, bs =>
      match front bs with
      | .empty => []
      | .char c _ rest => c :: go fuel rest
      | .broken none => ['\uFFFD']
      | .broken (some n) => '\uFFFD' :: go fuel (bs.drop n)

/-- How many bytes a text takes. -/
def size (s : String) : Nat := s.utf8ByteSize

end LiveTrace.Utf8
