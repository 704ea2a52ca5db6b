import DaqStream.Bytes.LittleEndian
import DaqStream.Record.Error

/-!
# Reading fields

A reading step takes bytes off the front of what is left of a record. Each step knows the
name of its field, for the error when too few bytes are left.
-/

namespace DaqStream

/-- A step of reading: what is left before gives a value and what is left after. -/
abbrev Reading (α : Type) := StateT Bytes (Except RecordError) α

namespace Reading

/-- The next `count` bytes. -/
def bytes (field : String) (count : Nat) : Reading Bytes := fun left =>
  match Bytes.cut count left with
  | some taken => .ok taken
  | none => .error (.fieldOverrun field)

/-- A 16-bit word. -/
def u16 (field : String) : Reading UInt16 := do
  return UInt16.ofNat (LittleEndian.toNat (← bytes field 2))

/-- A 32-bit word. -/
def u32 (field : String) : Reading UInt32 := do
  return UInt32.ofNat (LittleEndian.toNat (← bytes field 4))

/-- A 64-bit word. -/
def u64 (field : String) : Reading UInt64 := do
  return UInt64.ofNat (LittleEndian.toNat (← bytes field 8))

/-- A word that only some generations have, and its value in the others. -/
def u32If (present : Bool) (absent : UInt32) (field : String) : Reading UInt32 :=
  if present then u32 field else pure absent

/-- Everything that is left. -/
def rest : Reading Bytes := fun left => .ok (left, [])

/-- How many bytes are left. -/
def remaining : Reading Nat := fun left => .ok (left.length, left)

/-- `count` strings, each up to a zero byte. -/
def strings (field : String) : Nat → Reading (List Bytes)
  | 0 => pure []
  | count + 1 => fun left =>
    match left.dropWhile (· ≠ 0) with
    | [] => .error (.fieldOverrun field)
    | _ :: after =>
      match strings field count after with
      | .ok (more, left') => .ok (left.takeWhile (· ≠ 0) :: more, left')
      | .error e => .error e

end Reading

end DaqStream
