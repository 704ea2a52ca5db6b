import DaqStream.Proofs.Record.Wire

/-!
# Records one after the other

A string of bytes is gone through record by record, up to its end or the first record that
cannot be read. `scan` keeps what was read before the error; `decodeAll` is `scan` with those
records thrown away (`decodeAll_eq_scan`). A reader that holds no more than a number of bytes
at a time refuses larger records before it looks whether they are there (`splitWithin`).
-/

namespace DaqStream

open LittleEndian

namespace Record

variable {version : FormatVersion} {limit : Nat} {bytes block rest : Bytes} {r : Record}
  {e : RecordError}

section Split

theorem peekSize?_eq_none : peekSize? bytes = none ↔ bytes.length < 4 := by
  rw [peekSize?, Option.map_eq_none_iff, Bytes.cut_eq_none_iff]

theorem split_of_length_lt (h : bytes.length < 4) :
    split bytes = .error (.truncated recordHeaderSize bytes.length) := by
  rw [split, peekSize?_eq_none.2 h]

/-- With a whole size word in front, it is the word that decides. -/
theorem split_of_le_length (h : 4 ≤ bytes.length) :
    split bytes =
      if wordAt 0 bytes < recordHeaderSize then
        .error (.tooSmall (UInt32.ofNat (wordAt 0 bytes)))
      else if bytes.length < wordAt 0 bytes then
        .error (.truncated (wordAt 0 bytes) bytes.length)
      else .ok (bytes.take (wordAt 0 bytes), bytes.drop (wordAt 0 bytes)) := by
  have hpeek : peekSize? bytes = some (UInt32.ofNat (wordAt 0 bytes)) :=
    peekSize?_eq_some.2 ⟨h, rfl⟩
  rw [split, hpeek]
  dsimp only
  rw [toNat_ofNat_wordAt]
  refine if_congr Iff.rfl rfl ?_
  by_cases hlen : bytes.length < wordAt 0 bytes
  · rw [Bytes.cut_eq_none_iff.2 hlen, if_pos hlen]
  · have hcut : Bytes.cut (wordAt 0 bytes) bytes =
        some (bytes.take (wordAt 0 bytes), bytes.drop (wordAt 0 bytes)) :=
      Bytes.cut_eq_some_iff.2
        ⟨(List.take_append_drop _ _).symm, List.length_take_of_le (Nat.le_of_not_lt hlen)⟩
    rw [hcut, if_neg hlen]

/-- All of a block is read, or fails to be read, as the block that it is. -/
theorem decode_eq_decodeWire (h : IsBlock block) :
    decode version block = decodeWire version maxDepth block := by
  have hsplit : split block = .ok (block, []) :=
    split_eq_ok_iff.2 ⟨(List.append_nil block).symm, h⟩
  rw [decode, decodePrefix, hsplit]
  dsimp only
  cases decodeWire version maxDepth block <;> rfl

end Split

section Limit

/-- The bytes of the record at the front of `bytes` and the bytes after it, for a reader that
    holds at most `limit` bytes at a time. -/
def splitWithin (limit : Nat) (bytes : Bytes) : Except RecordError (Bytes × Bytes) :=
  match peekSize? bytes with
  | none => split bytes
  | some declared =>
    if recordHeaderSize ≤ declared.toNat ∧ limit < declared.toNat then
      .error (.tooLarge declared.toNat limit)
    else split bytes

/-- The record at the front of `bytes` and how many bytes it took, for a reader that holds at
    most `limit` bytes at a time. -/
def decodeWithin (version : FormatVersion) (limit : Nat) (bytes : Bytes) :
    Except RecordError (Record × Nat) :=
  match splitWithin limit bytes with
  | .error e => .error e
  | .ok (wire, _) =>
    match decodeWire version maxDepth wire with
    | .error e => .error e
    | .ok r => .ok (r, wire.length)

/-- The size word at the front of `bytes`, if it is there, does not exceed the limit. -/
def FrontWithin (limit : Nat) (bytes : Bytes) : Prop :=
  ∀ declared, peekSize? bytes = some declared → declared.toNat ≤ limit

theorem splitWithin_of_frontWithin (h : FrontWithin limit bytes) :
    splitWithin limit bytes = split bytes := by
  unfold splitWithin
  split
  · rfl
  · rename_i declared hpeek
    have hle := h declared hpeek
    exact if_neg fun hlarge => absurd hlarge.2 (Nat.not_lt.2 hle)

theorem decodeWithin_of_frontWithin (h : FrontWithin limit bytes) :
    decodeWithin version limit bytes = decodePrefix version bytes := by
  rw [decodeWithin, splitWithin_of_frontWithin h]
  rfl

theorem splitWithin_of_length_lt (h : bytes.length < 4) :
    splitWithin limit bytes = .error (.truncated recordHeaderSize bytes.length) := by
  rw [splitWithin, peekSize?_eq_none.2 h]
  exact split_of_length_lt h

theorem splitWithin_of_le_length (h : 4 ≤ bytes.length) :
    splitWithin limit bytes =
      if wordAt 0 bytes < recordHeaderSize then
        .error (.tooSmall (UInt32.ofNat (wordAt 0 bytes)))
      else if limit < wordAt 0 bytes then .error (.tooLarge (wordAt 0 bytes) limit)
      else if bytes.length < wordAt 0 bytes then
        .error (.truncated (wordAt 0 bytes) bytes.length)
      else .ok (bytes.take (wordAt 0 bytes), bytes.drop (wordAt 0 bytes)) := by
  have hpeek : peekSize? bytes = some (UInt32.ofNat (wordAt 0 bytes)) :=
    peekSize?_eq_some.2 ⟨h, rfl⟩
  rw [splitWithin, hpeek]
  dsimp only
  rw [toNat_ofNat_wordAt, split_of_le_length h]
  by_cases hsmall : wordAt 0 bytes < recordHeaderSize
  · rw [if_neg (fun hlarge => absurd hlarge.1 (Nat.not_le.2 hsmall)), if_pos hsmall, if_pos hsmall]
  · simp only [Nat.le_of_not_lt hsmall, true_and, if_neg hsmall]

theorem splitWithin_eq_ok :
    splitWithin limit bytes = .ok (block, rest) ↔
      bytes = block ++ rest ∧ IsBlock block ∧ block.length ≤ limit := by
  by_cases hword : bytes.length < 4
  · rw [splitWithin_of_length_lt hword]
    refine iff_of_false (by simp) ?_
    rintro ⟨rfl, hblock, -⟩
    have := hblock.header
    rw [List.length_append] at hword
    simp only [recordHeaderSize] at this
    omega
  · have hwhole : 4 ≤ bytes.length := Nat.le_of_not_lt hword
    rw [← and_assoc, ← split_eq_ok_iff, splitWithin_of_le_length hwhole, split_of_le_length hwhole]
    split
    · simp
    · by_cases hlarge : limit < wordAt 0 bytes
      · rw [if_pos hlarge]
        refine iff_of_false (by simp) ?_
        rintro ⟨hok, hle⟩
        split at hok
        · simp at hok
        · rename_i hlen
          cases hok
          rw [List.length_take_of_le (Nat.le_of_not_lt hlen)] at hle
          omega
      · rw [if_neg hlarge]
        refine (and_iff_left_of_imp fun hok => ?_).symm
        split at hok
        · simp at hok
        · rename_i hlen
          cases hok
          rw [List.length_take_of_le (Nat.le_of_not_lt hlen)]
          omega

theorem decodeWithin_eq_ok {used : Nat} :
    decodeWithin version limit bytes = .ok (r, used) ↔
      ∃ block rest, splitWithin limit bytes = .ok (block, rest) ∧
        decodeWire version maxDepth block = .ok r ∧ used = block.length := by
  unfold decodeWithin
  cases hsplit : splitWithin limit bytes with
  | error e => simp
  | ok parts =>
    obtain ⟨block, rest⟩ := parts
    cases hread : decodeWire version maxDepth block with
    | error e => simp [hread]
    | ok q => simp [hread, eq_comm]

/-- All of `block` is one record, for a reader that holds at most `limit` bytes at a time. -/
def IsWhole (version : FormatVersion) (limit : Nat) (block : Bytes) : Prop :=
  ∃ r, decodeWithin version limit block = .ok (r, block.length)

theorem isWhole_iff :
    IsWhole version limit block ↔
      IsBlock block ∧ block.length ≤ limit ∧ ∃ r, decodeWire version maxDepth block = .ok r := by
  constructor
  · rintro ⟨r, hr⟩
    obtain ⟨front, rest, hsplit, hread, hlen⟩ := decodeWithin_eq_ok.1 hr
    obtain ⟨hbytes, hblock, hle⟩ := splitWithin_eq_ok.1 hsplit
    obtain rfl : rest = [] := by
      have hsum := congrArg List.length hbytes
      rw [List.length_append, hlen] at hsum
      exact List.eq_nil_of_length_eq_zero (by omega)
    obtain rfl : block = front := by rw [hbytes, List.append_nil]
    exact ⟨hblock, hle, r, hread⟩
  · rintro ⟨hblock, hle, r, hread⟩
    have hsplit := splitWithin_eq_ok.2 ⟨(List.append_nil block).symm, hblock, hle⟩
    exact ⟨r, decodeWithin_eq_ok.2 ⟨block, [], hsplit, hread, rfl⟩⟩

theorem isWhole_take_of_decodeWithin {used : Nat}
    (h : decodeWithin version limit bytes = .ok (r, used)) :
    IsWhole version limit (bytes.take used) := by
  obtain ⟨block, rest, hsplit, hread, rfl⟩ := decodeWithin_eq_ok.1 h
  obtain ⟨rfl, hblock, hle⟩ := splitWithin_eq_ok.1 hsplit
  rw [List.take_left]
  exact isWhole_iff.2 ⟨hblock, hle, r, hread⟩

/-- Two blocks at the front of the same bytes are the same block. -/
theorem IsBlock.append_inj {block' rest' : Bytes} (h : IsBlock block) (h' : IsBlock block')
    (heq : block ++ rest = block' ++ rest') : block = block' ∧ rest = rest' := by
  have hlen := h.wordAt_append rest
  rw [heq, h'.wordAt_append] at hlen
  exact List.append_inj heq hlen.symm

/-- Where whole records end because no more can be read, no other list of whole records goes
    further. -/
theorem flatten_prefix_of_stopped {blocks others : List Bytes}
    (hblocks : ∀ b ∈ blocks, IsWhole version limit b)
    (hstop : ∀ r used, decodeWithin version limit rest ≠ .ok (r, used))
    (hothers : ∀ b ∈ others, IsWhole version limit b)
    (hbeginning : others.flatten <+: blocks.flatten ++ rest) : others.flatten <+: blocks.flatten := by
  induction blocks generalizing others with
  | nil =>
    cases others with
    | nil => exact List.prefix_refl []
    | cons other others =>
      obtain ⟨more, hmore⟩ := hbeginning
      obtain ⟨hblock, hle, r, hread⟩ := isWhole_iff.1 (hothers other (by simp))
      have hrest : rest = other ++ (others.flatten ++ more) := by
        simpa using hmore.symm
      have hsplit := splitWithin_eq_ok.2 ⟨hrest, hblock, hle⟩
      exact absurd (decodeWithin_eq_ok.2 ⟨_, _, hsplit, hread, rfl⟩) (hstop r _)
  | cons block blocks ih =>
    cases others with
    | nil => exact List.nil_prefix
    | cons other others =>
      obtain ⟨more, hmore⟩ := hbeginning
      simp only [List.flatten_cons, List.append_assoc] at hmore
      have hother := (isWhole_iff.1 (hothers other (by simp))).1
      have hblock := (isWhole_iff.1 (hblocks block (by simp))).1
      obtain ⟨rfl, hafter⟩ := hother.append_inj hblock hmore
      have hrest := ih (fun b hb => hblocks b (by simp [hb])) (fun b hb => hothers b (by simp [hb]))
        ⟨more, hafter⟩
      rw [List.flatten_cons, List.flatten_cons]
      exact (List.prefix_append_right_inj other).2 hrest

end Limit

section Scan

theorem length_drop_lt_of_decodePrefix {used : Nat}
    (h : decodePrefix version bytes = .ok (r, used)) : (bytes.drop used).length < bytes.length := by
  obtain ⟨block, rest, ⟨rfl, hblock⟩, -, rfl⟩ := decodePrefix_eq_ok.1 h
  have := hblock.header
  simp only [recordHeaderSize] at this
  simp only [List.drop_left, List.length_append]
  omega

/-- The records of `bytes` one after the other, up to the end or the first that cannot be read,
    and why that one cannot. -/
def scan (version : FormatVersion) (bytes : Bytes) : List Record × Option RecordError :=
  if bytes.isEmpty then ([], none)
  else match h : decodePrefix version bytes with
    | .error e => ([], some e)
    | .ok (r, used) =>
      have : (bytes.drop used).length < bytes.length := length_drop_lt_of_decodePrefix h
      let (rs, stopped) := scan version (bytes.drop used)
      (r :: rs, stopped)
termination_by bytes.length
decreasing_by assumption

theorem ne_nil_of_decodePrefix {used : Nat} (h : decodePrefix version bytes = .ok (r, used)) :
    bytes.isEmpty = false := by
  have hlt := length_drop_lt_of_decodePrefix h
  cases bytes with
  | nil => simp at hlt
  | cons => rfl

theorem scan_nil : scan version [] = ([], none) := by
  rw [scan]
  rfl

theorem scan_of_error (hne : bytes.isEmpty = false) (h : decodePrefix version bytes = .error e) :
    scan version bytes = ([], some e) := by
  rw [scan, hne, if_neg Bool.false_ne_true]
  split
  · rename_i e' he
    rw [h] at he
    cases he
    rfl
  · rename_i he
    rw [h] at he
    cases he

theorem scan_of_ok {used : Nat} (h : decodePrefix version bytes = .ok (r, used)) :
    scan version bytes =
      (r :: (scan version (bytes.drop used)).1, (scan version (bytes.drop used)).2) := by
  rw [scan, ne_nil_of_decodePrefix h, if_neg Bool.false_ne_true]
  split
  · rename_i he
    rw [h] at he
    cases he
  · rename_i r' used' he
    rw [h] at he
    cases he
    rfl

theorem decodeAll_of_error (hne : bytes.isEmpty = false)
    (h : decodePrefix version bytes = .error e) : decodeAll version bytes = .error e := by
  rw [decodeAll, readAll, hne, if_neg Bool.false_ne_true]
  rw [decodePrefix] at h
  split
  · rename_i e' hsplit
    rw [hsplit] at h
    cases h
    rfl
  · rename_i block rest hsplit
    rw [hsplit] at h
    dsimp only at h
    split at h
    · cases h
      rfl
    · cases h

theorem decodeAll_of_ok {used : Nat} (h : decodePrefix version bytes = .ok (r, used)) :
    decodeAll version bytes = (decodeAll version (bytes.drop used)).map (r :: ·) := by
  obtain ⟨block, rest, hbytes, hread, rfl⟩ := decodePrefix_eq_ok.1 h
  have hsplit := split_eq_ok_iff.2 hbytes
  have hdrop : bytes.drop block.length = rest := by rw [hbytes.1, List.drop_left]
  rw [hdrop, decodeAll, readAll, ne_nil_of_decodePrefix h, if_neg Bool.false_ne_true]
  split
  · rename_i he
    rw [hsplit] at he
    cases he
  · rename_i block' rest' he
    rw [hsplit] at he
    cases he
    rw [hread]
    dsimp only
    rw [decodeAll]
    cases readAll (decodeWire version maxDepth) rest <;> rfl

/-- To read all of a string is to go through it and to keep the records only if nothing
    stopped that. -/
theorem decodeAll_eq_scan (version : FormatVersion) (bytes : Bytes) :
    decodeAll version bytes =
      match scan version bytes with
      | (rs, none) => .ok rs
      | (_, some e) => .error e := by
  fun_induction scan version bytes with
  | case1 bytes hempty =>
    rw [decodeAll, readAll, if_pos hempty]
  | case2 bytes hempty e h =>
    exact decodeAll_of_error (Bool.eq_false_iff.2 hempty) h
  | case3 bytes hempty r used h _ rs stopped hscan ih =>
    rw [decodeAll_of_ok h, ih, hscan]
    cases stopped <;> rfl

/-- No size word that is met on the way through `bytes` exceeds the limit. The way leads from
    one record to the next, so it meets a word wherever the bytes in front are whole records. -/
def SizesWithin (version : FormatVersion) (limit : Nat) (bytes : Bytes) : Prop :=
  ∀ front rest rs, bytes = front ++ rest → decodeAll version front = .ok rs →
    FrontWithin limit rest

/-- What is read at the front of a string is read there whatever follows. -/
theorem decodePrefix_append {used : Nat} (h : decodePrefix version bytes = .ok (r, used))
    (more : Bytes) :
    decodePrefix version (bytes ++ more) = .ok (r, used) ∧
      (bytes ++ more).drop used = bytes.drop used ++ more := by
  obtain ⟨block, rest, ⟨rfl, hblock⟩, hread, rfl⟩ := decodePrefix_eq_ok.1 h
  constructor
  · exact decodePrefix_eq_ok.2
      ⟨block, rest ++ more, ⟨List.append_assoc _ _ _, hblock⟩, hread, rfl⟩
  · rw [List.append_assoc, List.drop_left, List.drop_left]

/-- The words that are met are the one in front and those that are met after its record. -/
theorem sizesWithin_iff :
    SizesWithin version limit bytes ↔
      FrontWithin limit bytes ∧
        ∀ r used, decodePrefix version bytes = .ok (r, used) →
          SizesWithin version limit (bytes.drop used) := by
  constructor
  · intro h
    refine ⟨h [] bytes [] rfl (by rw [decodeAll_eq_scan, scan_nil]), ?_⟩
    intro r used hr front rest rs hdrop hfront
    obtain ⟨block, _, ⟨rfl, hblock⟩, hread, rfl⟩ := decodePrefix_eq_ok.1 hr
    rw [List.drop_left] at hdrop
    subst hdrop
    refine h (block ++ front) rest (r :: rs) (List.append_assoc _ _ _).symm ?_
    have hfirst : decodePrefix version (block ++ front) = .ok (r, block.length) :=
      decodePrefix_eq_ok.2 ⟨block, front, ⟨rfl, hblock⟩, hread, rfl⟩
    rw [decodeAll_of_ok hfirst, List.drop_left, hfront]
    rfl
  · rintro ⟨hfirst, hafter⟩ front rest rs rfl hfront
    by_cases hempty : front = []
    · subst hempty
      exact hfirst
    · have hsome : front.isEmpty = false := by simpa using hempty
      cases hdecode : decodePrefix version front with
      | error e =>
        rw [decodeAll_of_error hsome hdecode] at hfront
        cases hfront
      | ok parts =>
        obtain ⟨r, used⟩ := parts
        obtain ⟨hwhole, hdrop⟩ := decodePrefix_append hdecode rest
        rw [decodeAll_of_ok hdecode] at hfront
        cases hmore : decodeAll version (front.drop used) with
        | error e =>
          rw [hmore] at hfront
          cases hfront
        | ok more => exact hafter r used hwhole (front.drop used) rest more hdrop hmore

end Scan

end Record

end DaqStream
