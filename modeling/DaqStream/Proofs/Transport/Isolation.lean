import DaqStream.Proofs.Transport.Delivery

/-!
# Damage stays in its block

A stream source takes all the bytes that a block declares before it looks at what is in them. So a
block that cannot be read is passed over as a whole (`readOne_of_block`), the source stands at the
next block whatever came of those before it (`after_length`), and each block is read as if there
were no other (`readOne_isolated`). Once the end has been seen the reader is left alone.
-/

namespace DaqStream

open Delivery

namespace StreamSource

variable {limit : Nat} {pending : List Delivery} {s : StreamSource} {block rest : Bytes}

/-- What becomes of a source by a number of reads, whatever comes of each. -/
def after (s : StreamSource) : (count : Nat) → StreamSource
  | 0 => s
  | count + 1 => s.readOne.2.after count

theorem after_add (s : StreamSource) (count more : Nat) :
    s.after (count + more) = (s.after count).after more := by
  induction count generalizing s with
  | zero => rw [Nat.zero_add, after]
  | succ count ih =>
    rw [Nat.succ_add, after, after]
    exact ih s.readOne.2

theorem readOne_of_atEnd (h : s.atEnd = true) : s.readOne = (.ok none, s) := by
  rw [readOne, if_pos h]

theorem after_of_atEnd (h : s.atEnd = true) (count : Nat) : s.after count = s := by
  induction count with
  | zero => rfl
  | succ count ih => rw [after, readOne_of_atEnd h, ih]

/-- A block is taken off the front as a whole, and what comes of it is what comes of it alone. -/
theorem readOne_of_block (hend : s.atEnd = false) (h : Delivers s.pending (block ++ rest))
    (hblock : Record.IsBlock block) (hle : block.length ≤ s.maxRecordSize) :
    ∃ later, Delivers later rest ∧
      s.readOne = (((Record.decode s.version block).map some).mapError .malformedRecord,
        { s with pending := later }) := by
  have hne : block ++ rest ≠ [] := List.append_ne_nil_of_left_ne_nil hblock.ne_nil rest
  have hsplit : Record.splitWithin s.maxRecordSize (block ++ rest) = .ok (block, rest) :=
    Record.splitWithin_eq_ok.2 ⟨rfl, hblock, hle⟩
  have hone := readOne_of_delivers hend h hne
  rw [hsplit] at hone
  rw [Record.decode_eq_decodeWire hblock]
  exact hone

/-- As many reads as there are blocks take these blocks, good or bad. -/
theorem after_length (version : FormatVersion) {blocks more : List Bytes}
    (h : Delivers pending (blocks ++ more).flatten)
    (hblocks : ∀ b ∈ blocks, Record.IsBlock b ∧ b.length ≤ limit) :
    ∃ later, Delivers later more.flatten ∧
      (⟨pending, version, limit, false⟩ : StreamSource).after blocks.length =
        ⟨later, version, limit, false⟩ := by
  induction blocks generalizing pending with
  | nil => exact ⟨pending, h, rfl⟩
  | cons block blocks ih =>
    obtain ⟨hfirst, hothers⟩ := List.forall_mem_cons.1 hblocks
    rw [List.cons_append, List.flatten_cons] at h
    obtain ⟨later, hlater, hread⟩ := readOne_of_block (s := ⟨pending, version, limit, false⟩) rfl h
      hfirst.1 hfirst.2
    obtain ⟨last, hlast, hafter⟩ := ih hlater hothers
    refine ⟨last, hlast, ?_⟩
    rw [List.length_cons, after, hread]
    exact hafter

/-- A stream of blocks is read block by block, whatever is in them: each read gives the record or
    the error that its block alone gives, whether or not those before it could be read. After the
    last one there is only the end, and when the end has been seen the reader is not asked again,
    whatever it would give. -/
theorem readOne_isolated (version : FormatVersion) {blocks : List Bytes}
    (h : Delivers pending blocks.flatten)
    (hblocks : ∀ b ∈ blocks, Record.IsBlock b ∧ b.length ≤ limit) :
    let s : StreamSource := ⟨pending, version, limit, false⟩
    (∀ i block, blocks[i]? = some block →
      (s.after i).readOne.1 = (match Record.decode version block with
        | .ok r => .ok (some r)
        | .error e => .error (.malformedRecord e)) ∧
      (s.after i).readOne.2.atEnd = false) ∧
    ∀ i, blocks.length ≤ i →
      (s.after i).readOne.1 = .ok none ∧ (s.after i).readOne.2.atEnd = true ∧
      ∀ given : List Delivery, let ended := { (s.after i).readOne.2 with pending := given }
        ended.readOne = (.ok none, ended) := by
  intro s
  constructor
  · intro i block hi
    obtain ⟨hlt, rfl⟩ := List.getElem?_eq_some_iff.1 hi
    have hsplit : blocks.take i ++ blocks[i] :: blocks.drop (i + 1) = blocks := by
      rw [List.getElem_cons_drop, List.take_append_drop]
    have hlength : (blocks.take i).length = i := List.length_take_of_le (Nat.le_of_lt hlt)
    rw [← hsplit] at h
    obtain ⟨later, hlater, hafter⟩ := after_length version h
      fun b hb => hblocks b (List.mem_of_mem_take hb)
    rw [hlength] at hafter
    obtain ⟨hblock, hle⟩ := hblocks blocks[i] (List.getElem_mem hlt)
    rw [List.flatten_cons] at hlater
    obtain ⟨_, -, hread⟩ := readOne_of_block (s := ⟨later, version, limit, false⟩) rfl hlater
      hblock hle
    rw [hafter, hread]
    refine ⟨?_, rfl⟩
    cases Record.decode version blocks[i] <;> rfl
  · intro i hi
    rw [← List.append_nil blocks] at h
    obtain ⟨later, hlater, hafter⟩ := after_length version h hblocks
    obtain ⟨last, hread⟩ := readOne_of_delivers_nil (s := ⟨later, version, limit, false⟩) rfl hlater
    -- The first read after the blocks sees the end, and no later one changes anything.
    obtain ⟨count, rfl⟩ := Nat.exists_eq_add_of_le hi
    have hended : (s.after (blocks.length + count)).readOne =
        (.ok none, ⟨last, version, limit, true⟩) := by
      rw [after_add, hafter]
      cases count with
      | zero => exact hread
      | succ count => rw [after, hread, after_of_atEnd rfl, readOne_of_atEnd rfl]
    rw [hended]
    exact ⟨rfl, rfl, fun given => readOne_of_atEnd rfl⟩

/-- A scaler readout without any of its fields, between two marks that something failed. -/
def damaged : List Bytes :=
  [[12, 0, 0, 0, 5, 0, 0, 0, 4, 0, 0, 0], [12, 0, 0, 0, 20, 0, 0, 0, 4, 0, 0, 0],
   [12, 0, 0, 0, 5, 0, 0, 0, 0, 0, 0, 0]]

/-- The damaged block comes in three pieces, with bytes of its neighbours in two of them. -/
def damagedPieces : List Delivery :=
  [.chunk [12, 0, 0, 0, 5, 0, 0, 0, 4, 0, 0, 0, 12, 0], .failure ⟨.interrupted, "interrupted"⟩,
   .chunk [0, 0, 20, 0, 0, 0], .failure ⟨.wouldBlock, "would block"⟩,
   .chunk [4, 0, 0, 0, 12, 0, 0, 0, 5, 0, 0, 0, 0, 0, 0], .chunk [0]]

theorem readOne_isolated_damaged :
    Delivers damagedPieces damaged.flatten ∧
      (∀ b ∈ damaged, Record.IsBlock b ∧ b.length ≤ 12) ∧
      let s : StreamSource := ⟨damagedPieces, .v12, 12, false⟩
      (∃ r, (s.after 0).readOne.1 = .ok (some r) ∧ r.kind = .abnormalEnd) ∧
      (s.after 1).readOne.1 = .error (.malformedRecord (.fieldOverrun "interval_start")) ∧
      (∃ r, (s.after 2).readOne.1 = .ok (some r) ∧ r.kind = .abnormalEnd) ∧
      (s.after 9).readOne.1 = .ok none := by
  have hpieces : Delivers damagedPieces damaged.flatten :=
    .chunk (by simp) (.failure rfl (.chunk (by simp) (.failure rfl (.chunk (by simp)
      (.chunk (by simp) .done)))))
  have hblocks : ∀ b ∈ damaged, Record.IsBlock b ∧ b.length ≤ 12 := by
    intro b hb
    simp only [damaged, List.mem_cons, List.not_mem_nil, or_false] at hb
    rcases hb with rfl | rfl | rfl
    all_goals exact ⟨⟨by decide, rfl⟩, by decide⟩
  obtain ⟨hread, hend⟩ := readOne_isolated .v12 hpieces hblocks
  exact ⟨hpieces, hblocks, ⟨_, (hread 0 _ rfl).1, rfl⟩, (hread 1 _ rfl).1,
    ⟨_, (hread 2 _ rfl).1, rfl⟩, (hend 9 (by decide)).1⟩

end StreamSource

end DaqStream
