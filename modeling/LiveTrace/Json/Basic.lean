import LiveTrace.Json.Token
import LiveTrace.Json.Text

/-
  JSON values. `tokens` lists a value's tokens and `ofTokens?` builds the value back, with a
  stack of the arrays and objects that are still open; `compact` and `pretty` are two
  layouts of the same tokens.
-/
namespace LiveTrace

/-- A value whose numbers and strings are kept as written; members keep their order, and a key
may come twice. -/
inductive Json where
  | null
  | bool (b : Bool)
  | number (text : List Char)
  | string (raw : List Char)
  | array (items : List Json)
  | object (members : List (List Char × Json))

namespace Json

/-- A string of the given text. -/
def ofString (s : String) : Json := .string (escape s.toList)

/-- A whole number. -/
def ofNat (n : Nat) : Json := .number (Number.digits n)

/-- An object with the given members. -/
def fields (members : List (String × Json)) : Json :=
  .object (members.map fun m => (escape m.1.toList, m.2))

mutual

/-- The tokens of a value. -/
def tokens : Json → List Token
  | .null => [.null]
  | .bool b => [if b then .true else .false]
  | .number t => [.number t]
  | .string raw => [.string raw]
  | .array items => .openBracket :: itemTokens items
  | .object members => .openBrace :: memberTokens members

/-- The tokens of the items from here, and of the end of the array. -/
def itemTokens : List Json → List Token
  | [] => [.closeBracket]
  | [v] => tokens v ++ [.closeBracket]
  | v :: w :: rest => tokens v ++ .comma :: itemTokens (w :: rest)

/-- The tokens of the members from here, and of the end of the object. -/
def memberTokens : List (List Char × Json) → List Token
  | [] => [.closeBrace]
  | [(k, v)] => .string k :: .colon :: tokens v ++ [.closeBrace]
  | (k, v) :: m :: rest => .string k :: .colon :: tokens v ++ .comma :: memberTokens (m :: rest)

end

/-- An array or object that is still open, last item first. -/
inductive Frame where
  | items (read : List Json)
  | members (read : List (List Char × Json)) (key : List Char)

/-- What may come next. -/
inductive Expecting where
  /-- A value. -/
  | value
  /-- A value, or the end of an array that has just begun. -/
  | valueOrEnd
  /-- A key. -/
  | key (read : List (List Char × Json))
  /-- A key, or the end of an object that has just begun. -/
  | keyOrEnd
  /-- A colon after a key. -/
  | colon (read : List (List Char × Json)) (key : List Char)
  /-- A comma, or the end of what is open. -/
  | commaOrEnd
  /-- Nothing more: the value is complete. -/
  | done (value : Json)

structure Builder where
  stack : List Frame := []
  expecting : Expecting := .value

/-- A finished value joins what is open around it. -/
def Builder.deliver (stack : List Frame) (v : Json) : Builder :=
  match stack with
  | [] => ⟨[], .done v⟩
  | .items read :: rest => ⟨.items (v :: read) :: rest, .commaOrEnd⟩
  | .members read key :: rest => ⟨.members ((key, v) :: read) key :: rest, .commaOrEnd⟩

/-- The first token of a value. -/
def Builder.startValue (stack : List Frame) : Token → Option Builder
  | .null => some (deliver stack .null)
  | .true => some (deliver stack (.bool true))
  | .false => some (deliver stack (.bool false))
  | .number t => some (deliver stack (.number t))
  | .string raw => some (deliver stack (.string raw))
  | .openBracket => some ⟨.items [] :: stack, .valueOrEnd⟩
  | .openBrace => some ⟨stack, .keyOrEnd⟩
  | _ => none

/-- One more token. -/
def Builder.step (b : Builder) (t : Token) : Option Builder :=
  match b.expecting with
  | .value => startValue b.stack t
  | .valueOrEnd =>
    if t = .closeBracket then
      match b.stack with
      | .items [] :: rest => some (deliver rest (.array []))
      | _ => none
    else startValue b.stack t
  | .key read =>
    match t with
    | .string k => some ⟨b.stack, .colon read k⟩
    | _ => none
  | .keyOrEnd =>
    match t with
    | .string k => some ⟨b.stack, .colon [] k⟩
    | .closeBrace => some (deliver b.stack (.object []))
    | _ => none
  | .colon read k =>
    match t with
    | .colon => some ⟨.members read k :: b.stack, .value⟩
    | _ => none
  | .commaOrEnd =>
    match t, b.stack with
    | .comma, .items read :: rest => some ⟨.items read :: rest, .value⟩
    | .closeBracket, .items read :: rest => some (deliver rest (.array read.reverse))
    | .comma, .members read _ :: rest => some ⟨rest, .key read⟩
    | .closeBrace, .members read _ :: rest => some (deliver rest (.object read.reverse))
    | _, _ => none
  | .done _ => none

/-- Some more tokens. -/
def Builder.run (b : Builder) : List Token → Option Builder
  | [] => some b
  | t :: ts => match b.step t with
    | some b => run b ts
    | none => none

/-- The value that tokens make up. -/
def ofTokens? (ts : List Token) : Option Json :=
  match Builder.run {} ts with
  | some ⟨_, .done v⟩ => some v
  | _ => none

/-- The value that a text holds. -/
def parse? (text : List Char) : Option Json := (tokens? text).bind ofTokens?

/-- One token as text. -/
def Token.text : Token → List Char
  | .openBrace => ['{']
  | .closeBrace => ['}']
  | .openBracket => ['[']
  | .closeBracket => [']']
  | .colon => [':']
  | .comma => [',']
  | .null => ['n', 'u', 'l', 'l']
  | .true => ['t', 'r', 'u', 'e']
  | .false => ['f', 'a', 'l', 's', 'e']
  | .number t => t
  | .string raw => '"' :: raw ++ ['"']

/-- A value without any blanks. -/
def compact (v : Json) : List Char := v.tokens.flatMap Token.text

/-- A new line, `depth` steps of two blanks in. -/
def newLine (depth : Nat) : List Char := '\n' :: List.replicate (2 * depth) ' '

mutual

/-- A value over several lines, where `depth` containers are open around it: each item and
member on a line of its own, two blanks further in, and empty containers closed at once. -/
def prettyAt (depth : Nat) : Json → List Char
  | .array [] => ['[', ']']
  | .array (v :: rest) => '[' :: prettyItems (depth + 1) (v :: rest) ++ newLine depth ++ [']']
  | .object [] => ['{', '}']
  | .object (m :: rest) => '{' :: prettyMembers (depth + 1) (m :: rest) ++ newLine depth ++ ['}']
  | .null => Token.text .null
  | .bool b => Token.text (if b then .true else .false)
  | .number t => t
  | .string raw => Token.text (.string raw)

def prettyItems (depth : Nat) : List Json → List Char
  | [] => []
  | [v] => newLine depth ++ prettyAt depth v
  | v :: w :: rest => newLine depth ++ prettyAt depth v ++ ',' :: prettyItems depth (w :: rest)

def prettyMembers (depth : Nat) : List (List Char × Json) → List Char
  | [] => []
  | [(k, v)] => newLine depth ++ '"' :: k ++ ['"', ':', ' '] ++ prettyAt depth v
  | (k, v) :: m :: rest =>
    newLine depth ++ '"' :: k ++ ['"', ':', ' '] ++ prettyAt depth v ++
      ',' :: prettyMembers depth (m :: rest)

end

/-- A value over several lines. -/
def pretty (v : Json) : List Char := prettyAt 0 v

def compactText (v : Json) : String := String.ofList v.compact

def prettyText (v : Json) : String := String.ofList v.pretty

mutual

/-- How many arrays and objects are open at once. -/
def depth : Json → Nat
  | .array items => depthOfItems items + 1
  | .object members => depthOfMembers members + 1
  | _ => 0

def depthOfItems : List Json → Nat
  | [] => 0
  | v :: rest => max (depth v) (depthOfItems rest)

def depthOfMembers : List (List Char × Json) → Nat
  | [] => 0
  | (_, v) :: rest => max (depth v) (depthOfMembers rest)

end

end Json

end LiveTrace
