/-!
# Little-endian words

Byte strings are lists of bytes. A number is written with its least significant
byte first, in a fixed number of bytes. Reading a word back gives the number
again, and the bytes of a word are determined by its value: `toNat_ofNat` and
`ofNat_toNat`. `cut` takes a fixed number of bytes off the front.
-/

namespace DaqStream

/-- A string of bytes. -/
abbrev Bytes := List UInt8

namespace LittleEndian

/-- The `width` low-order base-256 digits of `value`, least significant first. -/
def ofNat : Nat → Nat → Bytes
  | 0, _ => []
  | width + 1, value => UInt8.ofNat value :: ofNat width (value / 256)

/-- The number whose base-256 digits, least significant first, are `bytes`. -/
def toNat : Bytes → Nat
  | [] => 0
  | b :: bytes => b.toNat + 256 * toNat bytes

@[simp] theorem length_ofNat (width value : Nat) : (ofNat width value).length = width := by
  induction width generalizing value with
  | zero => rfl
  | succ width ih => simp [ofNat, ih]

theorem toNat_lt (bytes : Bytes) : toNat bytes < Nat.pow 256 bytes.length := by
  induction bytes with
  | nil => simp [toNat]
  | cons b bytes ih =>
    have hb : b.toNat < 256 := b.toNat_lt
    have hpow : Nat.pow 256 (bytes.length + 1) = 256 * Nat.pow 256 bytes.length := Nat.mul_comm ..
    simp only [toNat, List.length_cons, hpow]
    omega

theorem toNat_ofNat (width value : Nat) : toNat (ofNat width value) = value % Nat.pow 256 width := by
  induction width generalizing value with
  | zero => simp [ofNat, toNat, Nat.mod_one]
  | succ width ih =>
    have hpow : Nat.pow 256 (width + 1) = 256 * Nat.pow 256 width := Nat.mul_comm ..
    simp only [ofNat, toNat, ih, UInt8.toNat_ofNat', hpow]
    rw [Nat.mod_mul]

theorem ofNat_toNat (bytes : Bytes) : ofNat bytes.length (toNat bytes) = bytes := by
  induction bytes with
  | nil => rfl
  | cons b bytes ih =>
    have hb : b.toNat < 256 := b.toNat_lt
    have hdiv : (b.toNat + 256 * toNat bytes) / 256 = toNat bytes := by omega
    have hhead : UInt8.ofNat (b.toNat + 256 * toNat bytes) = b := by
      apply UInt8.toNat_inj.1
      simp only [UInt8.toNat_ofNat']
      omega
    simp only [List.length_cons, toNat, ofNat, hdiv, hhead, ih]

/-- A 16-bit word in two bytes. -/
def u16 (value : UInt16) : Bytes := ofNat 2 value.toNat

/-- A 32-bit word in four bytes. -/
def u32 (value : UInt32) : Bytes := ofNat 4 value.toNat

/-- A 64-bit word in eight bytes. -/
def u64 (value : UInt64) : Bytes := ofNat 8 value.toNat

@[simp] theorem length_u16 (value : UInt16) : (u16 value).length = 2 := by simp [u16]

@[simp] theorem length_u32 (value : UInt32) : (u32 value).length = 4 := by simp [u32]

@[simp] theorem length_u64 (value : UInt64) : (u64 value).length = 8 := by simp [u64]

end LittleEndian

namespace Bytes

/-- The first `count` bytes and the rest, if there are that many. -/
def cut (count : Nat) (bytes : Bytes) : Option (Bytes × Bytes) :=
  if (bytes.take count).length = count then some (bytes.take count, bytes.drop count) else none

theorem cut_eq_some_iff {count : Nat} {bytes front rest : Bytes} :
    cut count bytes = some (front, rest) ↔ bytes = front ++ rest ∧ front.length = count := by
  unfold cut
  constructor
  · intro h
    split at h
    · rename_i hlen
      simp only [Option.some.injEq, Prod.mk.injEq] at h
      obtain ⟨rfl, rfl⟩ := h
      exact ⟨(List.take_append_drop count bytes).symm, hlen⟩
    · simp at h
  · rintro ⟨rfl, rfl⟩
    simp

theorem cut_eq_none_iff {count : Nat} {bytes : Bytes} :
    cut count bytes = none ↔ bytes.length < count := by
  unfold cut
  simp only [List.length_take]
  split <;> simp <;> omega

theorem cut_of_le {count : Nat} {bytes : Bytes} (h : count ≤ bytes.length) :
    cut count bytes = some (bytes.take count, bytes.drop count) :=
  cut_eq_some_iff.2 ⟨(List.take_append_drop ..).symm, List.length_take_of_le h⟩

/-- The four-byte words of `bytes`; a last group of fewer than four is left out. -/
def words : Bytes → List UInt32
  | a :: b :: c :: d :: rest => UInt32.ofNat (LittleEndian.toNat [a, b, c, d]) :: words rest
  | _ => []

end Bytes

end DaqStream
