import DaqStream.Bytes.LittleEndian

/-!
# Reading UTF-8 text that may be damaged

`lossy` reads bytes as UTF-8 and puts one replacement character for every
maximal invalid stretch: the longest prefix that could still have begun a
character, or a single byte that begins none.
-/

namespace DaqStream.Utf8

/-- The character shown where bytes are no text. -/
def replacement : Char := '\uFFFD'

/-- What a lead byte of a longer character promises: its own bits, how many bytes
    follow, and the range that the first of them must lie in. -/
structure Lead where
  bits : Nat
  following : Nat
  low : UInt8
  high : UInt8

/-- The promise of a lead byte; `none` for a byte that begins no longer character.
    The ranges exclude overlong forms, surrogates and values past the last code point. -/
def lead (b : UInt8) : Option Lead :=
  if 0xC2 ≤ b ∧ b ≤ 0xDF then some ⟨b.toNat - 0xC0, 1, 0x80, 0xBF⟩
  else if b = 0xE0 then some ⟨0, 2, 0xA0, 0xBF⟩
  else if b = 0xED then some ⟨0xD, 2, 0x80, 0x9F⟩
  else if 0xE1 ≤ b ∧ b ≤ 0xEF then some ⟨b.toNat - 0xE0, 2, 0x80, 0xBF⟩
  else if b = 0xF0 then some ⟨0, 3, 0x90, 0xBF⟩
  else if 0xF1 ≤ b ∧ b ≤ 0xF3 then some ⟨b.toNat - 0xF0, 3, 0x80, 0xBF⟩
  else if b = 0xF4 then some ⟨4, 3, 0x80, 0x8F⟩
  else none

/-- Read `count` continuation bytes, the first between `low` and `high`. Stops in front
    of the first byte that does not fit; the character is then the replacement. -/
def follow (low high : UInt8) (bits : Nat) : Nat → Bytes → Char × Bytes
  | 0, rest => (Char.ofNat bits, rest)
  | _ + 1, [] => (replacement, [])
  | count + 1, b :: rest =>
    if low ≤ b ∧ b ≤ high then
      follow 0x80 0xBF (bits * 64 + (b.toNat - 0x80)) count rest
    else (replacement, b :: rest)

theorem length_follow_le (low high : UInt8) (bits count : Nat) (bytes : Bytes) :
    (follow low high bits count bytes).2.length ≤ bytes.length := by
  induction count generalizing low high bits bytes with
  | zero => simp [follow]
  | succ count ih =>
    cases bytes with
    | nil => simp [follow]
    | cons b rest =>
      unfold follow
      split
      · exact Nat.le_succ_of_le (ih _ _ _ _)
      · simp

/-- The first character of `b :: rest`, and what follows it. -/
def front (b : UInt8) (rest : Bytes) : Char × Bytes :=
  if b < 0x80 then (Char.ofNat b.toNat, rest)
  else match lead b with
    | some l => follow l.low l.high l.bits l.following rest
    | none => (replacement, rest)

theorem length_front_le (b : UInt8) (rest : Bytes) : (front b rest).2.length ≤ rest.length := by
  unfold front
  split
  · simp
  · split
    · exact length_follow_le ..
    · simp

/-- The characters of `bytes`, damaged stretches replaced. -/
def lossyChars : Bytes → List Char
  | [] => []
  | b :: rest => (front b rest).1 :: lossyChars (front b rest).2
termination_by bytes => bytes.length
decreasing_by exact Nat.lt_succ_of_le (length_front_le b rest)

/-- The text of `bytes`, damaged stretches replaced. -/
def lossy (bytes : Bytes) : String := String.ofList (lossyChars bytes)

end DaqStream.Utf8
