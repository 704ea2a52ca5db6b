import DaqStream.Proofs.Record.Reading
import DaqStream.Record.Decode
import Mathlib.Data.List.Forall2

/-!
# Blocks

A block is a string of bytes that begins with its own length. Splitting takes the block off
the front of a string, so reading a whole string reads a list of blocks. A string is in at
most one way a list of blocks (`flatten_injective`): the framing of a stream needs no look
at what the records hold.
-/

namespace DaqStream

open LittleEndian

namespace Record

/-- The bytes begin with their own length, and have room for the size and type words. -/
structure IsBlock (bytes : Bytes) : Prop where
  header : recordHeaderSize ≤ bytes.length
  size : wordAt 0 bytes = bytes.length

theorem IsBlock.ne_nil {bytes : Bytes} (h : IsBlock bytes) : bytes ≠ [] := by
  have := h.header
  simp only [recordHeaderSize] at this
  rintro rfl
  simp at this

theorem IsBlock.length_lt {bytes : Bytes} (h : IsBlock bytes) : bytes.length < 2 ^ 32 :=
  h.size ▸ wordAt_lt 0 bytes

theorem wordAt_zero_append {front rest : Bytes} (h : 4 ≤ front.length) :
    wordAt 0 (front ++ rest) = wordAt 0 front := by
  rw [wordAt, wordAt, List.drop_zero, List.drop_zero, List.take_append_of_le_length h]

theorem IsBlock.wordAt_append {block : Bytes} (h : IsBlock block) (rest : Bytes) :
    wordAt 0 (block ++ rest) = block.length := by
  have := h.header
  simp only [recordHeaderSize] at this
  rw [wordAt_zero_append (by omega), h.size]

theorem peekSize?_eq_some {bytes : Bytes} {declared : UInt32} :
    peekSize? bytes = some declared ↔
      4 ≤ bytes.length ∧ UInt32.ofNat (wordAt 0 bytes) = declared := by
  unfold peekSize? Bytes.cut
  rw [wordAt, List.drop_zero]
  by_cases h : 4 ≤ bytes.length
  · simp [List.length_take_of_le h, h]
  · have hlen : ¬ (bytes.take 4).length = 4 := by
      rw [List.length_take]
      omega
    rw [if_neg hlen]
    simp [h]

/-- Splitting takes a block off the front. -/
theorem split_eq_ok_iff {bytes block rest : Bytes} :
    split bytes = .ok (block, rest) ↔ bytes = block ++ rest ∧ IsBlock block := by
  constructor
  · intro h
    obtain ⟨hbytes, hheader⟩ := split_eq_ok h
    refine ⟨hbytes, hheader, ?_⟩
    unfold split at h
    split at h
    · simp at h
    · rename_i declared hpeek
      obtain ⟨hfour, rfl⟩ := peekSize?_eq_some.1 hpeek
      rw [toNat_ofNat_wordAt] at h
      split at h
      · simp at h
      · split at h
        · rename_i parts hcut
          cases h
          obtain ⟨-, hlen⟩ := Bytes.cut_eq_some_iff.1 hcut
          simp only [recordHeaderSize] at hheader
          rw [hlen, hbytes, wordAt_zero_append (by omega)]
        · simp at h
  · rintro ⟨rfl, hblock⟩
    have hheader := hblock.header
    have hword := hblock.wordAt_append rest
    have hpeek : peekSize? (block ++ rest) = some (UInt32.ofNat block.length) := by
      rw [peekSize?_eq_some, hword]
      simp only [recordHeaderSize] at hheader
      exact ⟨by rw [List.length_append]; omega, rfl⟩
    have hlen : (UInt32.ofNat block.length).toNat = block.length :=
      UInt32.toNat_ofNat_of_lt' hblock.length_lt
    have hcut : Bytes.cut block.length (block ++ rest) = some (block, rest) :=
      Bytes.cut_eq_some_iff.2 ⟨rfl, rfl⟩
    unfold split
    rw [hpeek]
    dsimp only
    rw [hlen, if_neg (by omega), hcut]

/-- The block at the front of a string is as long as the word there says. -/
theorem append_isBlock_iff {bytes block rest : Bytes} :
    bytes = block ++ rest ∧ IsBlock block ↔
      recordHeaderSize ≤ wordAt 0 bytes ∧ wordAt 0 bytes ≤ bytes.length ∧
        block = bytes.take (wordAt 0 bytes) ∧ rest = bytes.drop (wordAt 0 bytes) := by
  constructor
  · rintro ⟨rfl, hblock⟩
    rw [hblock.wordAt_append, List.take_left, List.drop_left, List.length_append]
    exact ⟨hblock.header, by omega, rfl, rfl⟩
  · rintro ⟨hheader, hle, rfl, rfl⟩
    have hlen := List.length_take_of_le hle
    refine ⟨(List.take_append_drop _ _).symm, ?_, ?_⟩
    · rw [hlen]
      exact hheader
    · rw [hlen]
      have hfour : 4 ≤ (bytes.take (wordAt 0 bytes)).length := by
        rw [hlen]
        exact Nat.le_trans (by decide) hheader
      have happend := @wordAt_zero_append _ (bytes.drop (wordAt 0 bytes)) hfour
      rw [List.take_append_drop] at happend
      exact happend.symm

/-- Reading all of a string reads the blocks that it is made of. -/
theorem readAll_eq_ok {one : Bytes → Except RecordError Record} {bytes : Bytes}
    {rs : List Record} :
    readAll one bytes = .ok rs ↔
      ∃ blocks : List Bytes, bytes = blocks.flatten ∧
        List.Forall₂ (fun block r => IsBlock block ∧ one block = .ok r) blocks rs := by
  constructor
  · intro h
    fun_induction readAll one bytes generalizing rs with
    | case1 bytes hempty =>
      cases h
      exact ⟨[], by simpa using hempty, .nil⟩
    | case2 => simp at h
    | case3 => simp at h
    | case4 => simp at h
    | case5 bytes hempty block rest hsplit hlt r hone rest' hrest ih =>
      cases h
      obtain ⟨blocks, hflat, hall⟩ := ih hrest
      obtain ⟨hbytes, hblock⟩ := split_eq_ok_iff.1 hsplit
      refine ⟨block :: blocks, ?_, .cons ⟨hblock, hone⟩ hall⟩
      rw [List.flatten_cons, ← hflat]
      exact hbytes
  · rintro ⟨blocks, rfl, hall⟩
    induction hall with
    | nil =>
      rw [readAll]
      rfl
    | @cons block r blocks rs hfirst _ ih =>
      obtain ⟨hblock, hone⟩ := hfirst
      have hsplit : split (block :: blocks).flatten = .ok (block, blocks.flatten) :=
        split_eq_ok_iff.2 ⟨List.flatten_cons, hblock⟩
      have hne : (block :: blocks).flatten.isEmpty = false := by
        rw [List.flatten_cons]
        simp [hblock.ne_nil]
      rw [readAll, hne]
      simp only [Bool.false_eq_true, if_false]
      split
      · rename_i e he
        rw [hsplit] at he
        cases he
      · rename_i block' rest' he
        rw [hsplit] at he
        cases he
        rw [hone, ih]

/-- A string is in at most one way a list of blocks. -/
theorem flatten_injective {xs ys : List Bytes} (hx : ∀ b ∈ xs, IsBlock b)
    (hy : ∀ b ∈ ys, IsBlock b) (h : xs.flatten = ys.flatten) : xs = ys := by
  induction xs generalizing ys with
  | nil =>
    cases ys with
    | nil => rfl
    | cons y ys =>
      have hne := (hy y (by simp)).ne_nil
      simp [hne] at h
  | cons x xs ih =>
    cases ys with
    | nil =>
      have hne := (hx x (by simp)).ne_nil
      simp [hne] at h
    | cons y ys =>
      rw [List.flatten_cons, List.flatten_cons] at h
      have hxlen := (hx x (by simp)).wordAt_append xs.flatten
      have hylen := (hy y (by simp)).wordAt_append ys.flatten
      rw [h, hylen] at hxlen
      obtain ⟨rfl, hrest⟩ := List.append_inj h hxlen.symm
      rw [ih (fun b hb => hx b (by simp [hb])) (fun b hb => hy b (by simp [hb])) hrest]

end Record

end DaqStream
