/-!
# Decimal numbers in text

An unsigned number is one or more ASCII digits after an optional plus sign. Leading
zeros are allowed, blanks are not. `natBelow?` also refuses a number that does not
fit; `intWithin?` reads a signed number.
-/

namespace DaqStream.Decimal

/-- The value of an ASCII digit. -/
def digit? (c : Char) : Option Nat :=
  if '0' ≤ c ∧ c ≤ '9' then some (c.toNat - '0'.toNat) else none

/-- Continue a number whose digits so far have the value `value`. -/
def digitsFrom (value : Nat) : List Char → Option Nat
  | [] => some value
  | c :: cs => match digit? c with
    | some d => digitsFrom (value * 10 + d) cs
    | none => none

/-- One or more digits and nothing else. -/
def digits? : List Char → Option Nat
  | [] => none
  | cs => digitsFrom 0 cs

/-- An unsigned number, with an optional plus sign. -/
def nat? (text : String) : Option Nat :=
  match text.toList with
  | '+' :: cs => digits? cs
  | cs => digits? cs

/-- An unsigned number below `bound`. -/
def natBelow? (bound : Nat) (text : String) : Option Nat :=
  (nat? text).filter (· < bound)

/-- A number with an optional sign, at least `low` and below `high`. -/
def intWithin? (low high : Int) (text : String) : Option Int :=
  let value : Option Int := match text.toList with
    | '-' :: cs => (digits? cs).map fun n => - (n : Int)
    | _ => (nat? text).map fun n => (n : Int)
  value.filter fun v => low ≤ v ∧ v < high

end DaqStream.Decimal
