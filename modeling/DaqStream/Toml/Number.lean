import DaqStream.Text.Hexadecimal
import DaqStream.Text.Scan
import DaqStream.Toml.Value

/-!
# Reading numbers and dates of a TOML document

Digits may be separated by single underscores. A number that does not begin with zero is
decimal; `0x`, `0o` and `0b` begin numbers to other bases. Dates are checked against the
calendar.
-/

namespace DaqStream.Toml

open Scan

/-- Whether a character is a decimal digit. -/
def isDigit (c : Char) : Bool := '0' ≤ c && c ≤ '9'

/-- Digits with single underscores between them, which are left out. -/
def digits (isDigit : Char → Bool) : Scan (List Char) := do
  return (← separated1 (char '_') (run1 isDigit)).flatten

/-- The number that digits to a base stand for. -/
def valueOf (base : Nat) (cs : List Char) : Nat :=
  cs.foldl (fun n c => n * base + (Hexadecimal.value? c).getD 0) 0

/-- A sign; a number without one is not negative. -/
def sign : Scan Bool := do
  match ← optional (satisfy fun c => c == '+' || c == '-') with
  | some '-' => return true
  | _ => return false

/-- Decimal digits without leading zeros. -/
def decimalDigits : Scan (List Char) := do
  let ds ← digits isDigit
  match ds with
  | '0' :: _ :: _ => failure
  | ds => return ds

/-- A number after a mark of its base. -/
def based (mark : String) (base : Nat) : Scan Int := do
  literal mark
  return valueOf base (← digits fun c => (Hexadecimal.value? c).any (· < base))

/-- A decimal integer. -/
def decimal : Scan Int := do
  let negative ← sign
  let n := valueOf 10 (← decimalDigits)
  return if negative then - (n : Int) else n

/-- An integer that fits. -/
def integer : Scan Int := do
  let n ← based "0x" 16 <|> based "0o" 8 <|> based "0b" 2 <|> decimal
  if integerFits n then return n else failure

/-- Whether `mantissa * 10 ^ exponent` is past the greatest double-precision number, and
    nearer to infinity than to it. -/
def overflows (mantissa : Nat) (exponent : Int) : Bool :=
  let size : Int := (toString mantissa).length + exponent
  if mantissa = 0 ∨ size < 300 then false
  else if 320 < size then true
  else
    let bound := Nat.pow 2 1024 - Nat.pow 2 970
    if 0 ≤ exponent then bound ≤ mantissa * Nat.pow 10 exponent.toNat
    else bound * Nat.pow 10 (-exponent).toNat ≤ mantissa

/-- The decimals of a floating-point number, after its point. -/
def fraction : Scan (List Char) := do
  char '.'
  digits isDigit

/-- The exponent of a floating-point number. -/
def exponent : Scan Int := do
  let _ ← satisfy fun c => c == 'e' || c == 'E'
  let negative ← sign
  let n := valueOf 10 (← digits isDigit)
  return if negative then - (n : Int) else n

/-- A floating-point number in digits, which has decimals or an exponent. One that is too
    great is refused, unless it is negative. -/
def floatInDigits : Scan Unit := do
  let negative ← sign
  let whole ← decimalDigits
  let decimals ← optional fraction
  let power ← optional exponent
  if decimals.isNone && power.isNone then failure
  let decimals := decimals.getD []
  if !negative && overflows (valueOf 10 (whole ++ decimals)) (power.getD 0 - decimals.length)
  then failure

/-- A floating-point number by name: infinity, or not a number. -/
def floatByName : Scan Unit := do
  let _ ← sign
  literal "inf" <|> literal "nan"

/-- A floating-point number. -/
def float : Scan Unit := floatInDigits <|> floatByName

/-- A number of `width` decimal digits, at most `high` and at least `low`. -/
def between (width low high : Nat) : Scan Nat := fun cs =>
  let front := cs.take width
  if front.length = width ∧ front.all isDigit ∧ low ≤ valueOf 10 front ∧ valueOf 10 front ≤ high then
    some (valueOf 10 front, cs.drop width)
  else none

/-- Days of a month. -/
def daysIn (year month : Nat) : Nat :=
  if month = 2 then
    if year % 4 = 0 ∧ (year % 100 ≠ 0 ∨ year % 400 = 0) then 29 else 28
  else if month = 4 ∨ month = 6 ∨ month = 9 ∨ month = 11 then 30
  else 31

/-- A day. -/
def day : Scan Unit := do
  let year ← between 4 0 9999
  char '-'
  let month ← between 2 1 12
  char '-'
  let _ ← between 2 1 (daysIn year month)

/-- A time of day, to the second or finer. The last minute of a day may have 61 seconds. -/
def time : Scan Unit := do
  let _ ← between 2 0 23
  char ':'
  let _ ← between 2 0 59
  char ':'
  let _ ← between 2 0 60
  let _ ← optional (do
    char '.'
    run1 isDigit)

/-- A distance from universal time. -/
def offset : Scan Unit := do
  match ← any with
  | 'Z' | 'z' => return ()
  | '+' | '-' => do
    let _ ← between 2 0 23
    char ':'
    let _ ← between 2 0 59
  | _ => failure

/-- A date, a time, or both. -/
def date : Scan Unit := (do
  day
  let _ ← optional (do
    let _ ← satisfy fun c => c == 'T' || c == 't' || c == ' '
    time
    optional offset)) <|> time

end DaqStream.Toml
