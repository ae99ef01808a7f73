import LiveTrace.Number.Shortest

/-
  The values that hooks report, and their texts in a trace.
-/
namespace LiveTrace

/-- A value a program reports. A floating-point number is given by its bits. -/
inductive LoggedValue where
  | int (n : Int)
  | float (bits : UInt64)
  | bool (b : Bool)
  | char (c : Char)
  | text (s : String)
  deriving DecidableEq, Repr

/-- A whole number in decimal. -/
def intText (n : Int) : String :=
  match n with
  | .ofNat n => String.ofList (Number.digits n)
  | .negSucc n => String.ofList ('-' :: Number.digits (n + 1))

/-- The text of a value. -/
def LoggedValue.display : LoggedValue → String
  | int n => intText n
  | float bits => Number.float64Text bits
  | bool b => if b then "true" else "false"
  | char c => String.singleton c
  | text s => s

end LiveTrace
