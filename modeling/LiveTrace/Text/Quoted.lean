import LiveTrace.Text.Hidden
import LiveTrace.Number.Digits

/-
  Texts quoted for a reader: in double quotes, with escapes for the quote, the backslash,
  the common control characters and everything that cannot be seen.
-/
namespace LiveTrace.Text

/-- One character inside double quotes. -/
def quoteChar (c : Char) : List Char :=
  if c == '"' then ['\\', '"']
  else if c == '\\' then ['\\', '\\']
  else if c == '\n' then ['\\', 'n']
  else if c == '\r' then ['\\', 'r']
  else if c == '\t' then ['\\', 't']
  else if c.toNat == 0 then ['\\', '0']
  else if isHidden c then ['\\', 'u', '{'] ++ Number.hexDigits c.toNat ++ ['}']
  else [c]

/-- A text in double quotes. -/
def quoted (s : String) : String :=
  String.ofList ('"' :: s.toList.flatMap quoteChar ++ ['"'])

/-- The texts of a list, quoted, in brackets. -/
def quotedList (ss : List String) : String :=
  "[" ++ ", ".intercalate (ss.map quoted) ++ "]"

end LiveTrace.Text
