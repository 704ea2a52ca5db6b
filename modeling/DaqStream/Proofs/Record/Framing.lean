import DaqStream.Proofs.Record.Reachable
import DaqStream.Proofs.Record.Scan

/-!
# Framing

A stream needs no marks between its records, since every record says how long it is. What
follows a record plays no part in reading it, and no record begins with another. So the
encodings of a list of records are read as that list, and a string that is read as a list of
records is the encodings of that list (`framing_unambiguous`).
-/

namespace DaqStream

namespace Record

variable {version : FormatVersion} {limit used : Nat} {bytes block block' : Bytes} {r q : Record}

/-- All of the encoding of `r` is taken for one record, and that record is `q`. -/
def ReadBackAs (version : FormatVersion) (r q : Record) : Prop :=
  decodePrefix version r.encode = .ok (q, r.encode.length)

section Whole

theorem decodePrefix_whole :
    decodePrefix version block = .ok (r, block.length) ↔
      IsBlock block ∧ decodeWire version maxDepth block = .ok r := by
  rw [decodePrefix_eq_ok]
  constructor
  · intro h
    obtain ⟨front, rest, ⟨hbytes, hblock⟩, hread, hlength⟩ := h
    have hrest : rest = [] := by
      have hsum := congrArg List.length hbytes
      rw [List.length_append] at hsum
      apply List.eq_nil_of_length_eq_zero
      omega
    have hfront : block = front := by
      rw [hbytes, hrest, List.append_nil]
    subst hfront
    exact ⟨hblock, hread⟩
  · intro h
    obtain ⟨hblock, hread⟩ := h
    exact ⟨block, [], ⟨(List.append_nil block).symm, hblock⟩, hread, rfl⟩

/-- That is: the encoding is read as `q`, and `q` is written as the same bytes again. -/
theorem readBackAs_iff_encode :
    ReadBackAs version r q ↔ decode version r.encode = .ok q ∧ q.encode = r.encode := by
  rw [ReadBackAs, decodePrefix_whole]
  constructor
  · intro h
    obtain ⟨hblock, hread⟩ := h
    exact ⟨(decode_block hblock).2 hread, encode_of_wire (wire_of_decodeWire hread)⟩
  · intro h
    obtain ⟨hdecode, hsame⟩ := h
    obtain ⟨used, hfront⟩ := decode_eq_ok.1 hdecode
    obtain ⟨block, rest, ⟨-, hblock⟩, hread, -⟩ := decodePrefix_eq_ok.1 hfront
    have hencode : q.encode = block := encode_of_wire (wire_of_decodeWire hread)
    rw [← hsame, hencode]
    exact ⟨hblock, hread⟩

/-- A record that a program holds is read back whenever its encoding can be read at all, unless
    it is so large that its size word cannot say how large. -/
theorem readBackAs_iff (h : Made r) :
    ReadBackAs version r q ↔ decode version r.encode = .ok q ∧ r.size < 2 ^ 32 := by
  rw [ReadBackAs, decodePrefix_whole]
  constructor
  · intro hread
    obtain ⟨hblock, hread⟩ := hread
    have hlt := hblock.length_lt
    rw [length_encode] at hlt
    exact ⟨(decode_block hblock).2 hread, hlt⟩
  · intro hread
    obtain ⟨hread, hsize⟩ := hread
    obtain ⟨hblock, -⟩ := h.readsBack hsize
    exact ⟨hblock, (decode_block hblock).1 hread⟩

/-- No record begins with another. -/
theorem eq_of_isBlock_of_begins (h : IsBlock block) (h' : IsBlock block')
    (hbegins : block <+: block') : block = block' := by
  obtain ⟨more, hmore⟩ := hbegins
  have hsame : block ++ more = block' ++ [] := by
    rw [hmore, List.append_nil]
  exact (h.append_inj h' hsame).1

theorem used_of_decodePrefix (h : decodePrefix version bytes = .ok (r, used)) :
    8 ≤ used ∧ used ≤ bytes.length := by
  obtain ⟨block, rest, ⟨hbytes, hblock⟩, -, hused⟩ := decodePrefix_eq_ok.1 h
  rw [hused, hbytes, List.length_append]
  exact ⟨hblock.header, Nat.le_add_right _ _⟩

end Whole

section Streams

theorem decodeAll_encodeAll {rs qs : List Record} (h : List.Forall₂ (ReadBackAs version) rs qs) :
    decodeAll version (encodeAll rs) = .ok qs := by
  induction h with
  | nil => rw [encodeAll, decodeAll_eq_scan, scan_nil]
  | @cons r q rs qs hfirst _ ih =>
    obtain ⟨hwhole, hdrop⟩ := decodePrefix_append hfirst (encodeAll rs)
    rw [List.drop_length, List.nil_append] at hdrop
    rw [encodeAll, decodeAll_of_ok hwhole, hdrop, ih]
    rfl

theorem encodeAll_of_decodeAll {rs : List Record} (h : decodeAll version bytes = .ok rs) :
    encodeAll rs = bytes := by
  obtain ⟨blocks, hbytes, hall⟩ := readAll_eq_ok.1 h
  subst hbytes
  clear h
  induction hall with
  | nil => rfl
  | cons hfirst _ ih =>
    rw [encodeAll, encode_of_wire (wire_of_decodeWire hfirst.2), ih, List.flatten_cons]

/-- Read records off the front until nothing is left, in at most `limit` steps; nothing if that
    takes more of them. -/
def decodeSteps (version : FormatVersion) :
    (limit : Nat) → Bytes → Option (Except RecordError (List Record))
  | 0, bytes => if bytes.isEmpty then some (.ok []) else none
  | limit + 1, bytes =>
    if bytes.isEmpty then some (.ok [])
    else match decodePrefix version bytes with
      | .error e => some (.error e)
      | .ok (r, used) =>
        (decodeSteps version limit (bytes.drop used)).map fun rest => rest.map (r :: ·)

/-- Every step takes at least the two words in front of a record, which bounds their number. -/
theorem decodeSteps_eq (h : bytes.length ≤ 8 * limit) :
    decodeSteps version limit bytes = some (decodeAll version bytes) := by
  induction limit generalizing bytes with
  | zero =>
    obtain rfl : bytes = [] := List.eq_nil_of_length_eq_zero (by omega)
    rw [decodeAll_eq_scan, scan_nil]
    rfl
  | succ limit ih =>
    unfold decodeSteps
    by_cases hempty : bytes.isEmpty = true
    · obtain rfl : bytes = [] := List.isEmpty_iff.1 hempty
      rw [decodeAll_eq_scan, scan_nil]
      rfl
    · rw [if_neg hempty]
      have hsome : bytes.isEmpty = false := Bool.eq_false_iff.2 hempty
      cases hread : decodePrefix version bytes with
      | error e => rw [decodeAll_of_error hsome hread]
      | ok parts =>
        obtain ⟨r, used⟩ := parts
        -- What is left is shorter by eight bytes or more, so one step fewer is enough for it.
        have hused := used_of_decodePrefix hread
        have hleft : (bytes.drop used).length ≤ 8 * limit := by
          rw [List.length_drop]
          omega
        dsimp only
        rw [ih hleft, decodeAll_of_ok hread]
        rfl

end Streams

/-- Records that can be read back are read back together, in order, and what is read as a list
    of records is their encodings and nothing else. What follows a record does not change how it
    is read, and no encoding begins with another. Reading ends, since every step takes at least
    eight bytes. -/
theorem framing_unambiguous (version : FormatVersion) :
    (∀ rs qs : List Record, List.Forall₂ (ReadBackAs version) rs qs →
      MemorySource.ofBytes version (encodeAll rs) = .ok { records := qs }) ∧
    (∀ r q : Record,
      (ReadBackAs version r q ↔ decode version r.encode = .ok q ∧ q.encode = r.encode) ∧
      (Reachable r →
        (ReadBackAs version r q ↔ decode version r.encode = .ok q ∧ r.size < 2 ^ 32))) ∧
    (∀ (bytes : Bytes) (source : MemorySource), MemorySource.ofBytes version bytes = .ok source →
      encodeAll source.records = bytes) ∧
    (∀ (bytes more : Bytes) (r : Record) (used : Nat),
      decodePrefix version bytes = .ok (r, used) →
      decodePrefix version (bytes ++ more) = .ok (r, used)) ∧
    (∀ (block block' : Bytes) (r r' : Record),
      decodePrefix version block = .ok (r, block.length) →
      decodePrefix version block' = .ok (r', block'.length) →
      block <+: block' → block = block') ∧
    (∀ (bytes : Bytes) (r : Record) (used : Nat), decodePrefix version bytes = .ok (r, used) →
      8 ≤ used ∧ used ≤ bytes.length) ∧
    (∀ (bytes : Bytes) (limit : Nat), bytes.length ≤ 8 * limit →
      decodeSteps version limit bytes = some (decodeAll version bytes)) := by
  refine ⟨?_, ?_, ?_, ?_, ?_, ?_, ?_⟩
  · intro rs qs h
    rw [MemorySource.ofBytes, decodeAll_encodeAll h]
    rfl
  · intro r q
    refine ⟨readBackAs_iff_encode, ?_⟩
    intro h
    exact readBackAs_iff h.made
  · intro bytes source h
    rw [MemorySource.ofBytes] at h
    cases hall : decodeAll version bytes with
    | error e =>
      rw [hall] at h
      cases h
    | ok rs =>
      rw [hall] at h
      cases h
      exact encodeAll_of_decodeAll hall
  · intro bytes more r used h
    exact (decodePrefix_append h more).1
  · intro block block' r r' h h' hbegins
    exact eq_of_isBlock_of_begins (decodePrefix_whole.1 h).1 (decodePrefix_whole.1 h').1 hbegins
  · intro bytes r used h
    exact used_of_decodePrefix h
  · intro bytes limit h
    exact decodeSteps_eq h

/-- A record that was built and one that was read, one after the other. -/
theorem framing_unambiguous_builtAndRead :
    List.Forall₂ (ReadBackAs .v12) [nestedExample, compositeExample]
      [nestedExample.norm, compositeExample] ∧
    MemorySource.ofBytes .v12 (encodeAll [nestedExample, compositeExample]) =
      .ok { records := [nestedExample.norm, compositeExample] } ∧
    encodeAll [nestedExample.norm, compositeExample] =
      encodeAll [nestedExample, compositeExample] ∧
    decodePrefix .v12 (compositeExampleBlock ++ [9, 0, 0]) = .ok (compositeExample, 24) ∧
    decodeSteps .v12 3 compositeExampleBlock =
      some (decodeAll .v12 compositeExampleBlock) := by
  obtain ⟨htogether, hiff, hback, hmore, -, -, hsteps⟩ := framing_unambiguous .v12
  have hbuilt : ReadBackAs .v12 nestedExample nestedExample.norm := by
    obtain ⟨hblock, hread⟩ := made_nestedExample.readsBack (by decide)
    exact decodePrefix_whole.2 ⟨hblock, (hread maxDepth _).2 ⟨by decide, by decide, rfl⟩⟩
  have hdecode : decode .v12 compositeExampleBlock = .ok compositeExample := by
    with_unfolding_all rfl
  have hread : ReadBackAs .v12 compositeExample compositeExample :=
    ((hiff _ _).2 (.decoded hdecode)).2 ⟨hdecode, by decide⟩
  have hboth : List.Forall₂ (ReadBackAs .v12) [nestedExample, compositeExample]
      [nestedExample.norm, compositeExample] := .cons hbuilt (.cons hread .nil)
  have hsource := htogether _ _ hboth
  exact ⟨hboth, hsource, hback _ _ hsource, hmore _ _ _ _ hread, hsteps _ _ (by decide)⟩

end Record

end DaqStream
