/-!
# Hexadecimal digits

The digits from zero to fifteen, written in lower case and read in either case.
-/

namespace DaqStream.Hexadecimal

/-- The lower-case digit of a number below sixteen. -/
def digit (n : Nat) : Char :=
  if n < 10 then Char.ofNat ('0'.toNat + n) else Char.ofNat ('a'.toNat + (n - 10))

/-- The value of a digit. -/
def value? (c : Char) : Option Nat :=
  if '0' ≤ c ∧ c ≤ '9' then some (c.toNat - '0'.toNat)
  else if 'a' ≤ c ∧ c ≤ 'f' then some (c.toNat - 'a'.toNat + 10)
  else if 'A' ≤ c ∧ c ≤ 'F' then some (c.toNat - 'A'.toNat + 10)
  else none

theorem value?_digit {n : Nat} (h : n < 16) : value? (digit n) = some n := by
  have : ∀ n < 16, value? (digit n) = some n := by decide
  exact this n h

/-- `width` digits of a number, the most significant first. -/
def ofNat (width n : Nat) : List Char :=
  match width with
  | 0 => []
  | width + 1 => ofNat width (n / 16) ++ [digit (n % 16)]

/-- The number that digits stand for, the most significant first. -/
def toNat? (cs : List Char) : Option Nat :=
  cs.foldlM (fun n c => (value? c).map (n * 16 + ·)) 0

end DaqStream.Hexadecimal
