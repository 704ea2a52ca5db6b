/-!
# TOML values

The values of a TOML 1.0 document. Settings have no use for the value of a floating-point
number or a date, so these keep their text.
-/

namespace DaqStream.Toml

/-- A value. -/
inductive Value where
  | boolean (value : Bool)
  | integer (value : Int)
  | float (text : String)
  /-- A date, a time, or both. -/
  | date (text : String)
  | text (value : String)
  | array (items : List Value)
  | table (entries : List (String × Value))
  deriving Repr

/-- The entries of a table, in order. -/
abbrev Entries := List (String × Value)

/-- Whether a document can hold an integer: those of 64 bits with a sign. -/
def integerFits (n : Int) : Bool :=
  -9223372036854775808 ≤ n && n ≤ 9223372036854775807

/-- Whether a character can stand in a key without quotes. -/
def isBareKeyChar (c : Char) : Bool :=
  ('a' ≤ c && c ≤ 'z') || ('A' ≤ c && c ≤ 'Z') || ('0' ≤ c && c ≤ '9') || c == '_' || c == '-'

/-- Whether a character may not be written as it is: the ASCII controls, the tab excepted. -/
def isControl (c : Char) : Bool := (c.toNat < 0x20 && c != '\t') || c.toNat == 0x7F

end DaqStream.Toml
