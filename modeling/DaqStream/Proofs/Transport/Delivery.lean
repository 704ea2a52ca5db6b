import DaqStream.Proofs.Record.Scan
import DaqStream.Transport.Source

/-!
# Reading a stream in pieces

However a reader cuts its bytes into pieces, and however often it has to be asked again, it
hands out the same bytes (`Delivers.take`). So the next record of a stream source is the one
at the front of the bytes that are still to come (`readOne_of_delivers`), and a stream source
and a source in memory serve the same records and stop at the same error (`handsOut_scan`).
-/

namespace DaqStream

open LittleEndian

namespace Delivery

/-- A reader gives exactly these bytes and then ends: in chunks that are not empty, and with
    nothing but transient failures in between. -/
inductive Delivers : List Delivery → Bytes → Prop
  | done : Delivers [] []
  | chunk {front rest : Bytes} {pending : List Delivery} :
      front ≠ [] → Delivers pending rest → Delivers (.chunk front :: pending) (front ++ rest)
  | failure {error : IoError} {bytes : Bytes} {pending : List Delivery} :
      error.isTransient = true → Delivers pending bytes →
      Delivers (.failure error :: pending) bytes

/-- Asked for a number of bytes, such a reader gives the next ones, fewer only at the end. -/
theorem Delivers.take {pending : List Delivery} {bytes : Bytes} (h : Delivers pending bytes)
    (count : Nat) :
    ∃ later, Delivery.take count pending = (.ok (bytes.take count), later) ∧
      Delivers later (bytes.drop count) := by
  induction h generalizing count with
  | done => cases count <;> exact ⟨[], by simp [Delivery.take], .done⟩
  | @chunk front rest pending hfront hpending ih =>
    cases count with
    | zero => exact ⟨_, by simp [Delivery.take], .chunk hfront hpending⟩
    | succ count =>
      have hempty : front.isEmpty = false := by simpa using hfront
      rw [Delivery.take, hempty, if_neg Bool.false_ne_true]
      by_cases hlong : count + 1 < front.length
      · -- The reader keeps what was not asked for.
        have hkept : front.drop (count + 1) ≠ [] := by
          rw [Ne, List.drop_eq_nil_iff]
          omega
        refine ⟨_, by rw [if_pos hlong, List.take_append_of_le_length (by omega)], ?_⟩
        rw [List.drop_append_of_le_length (by omega)]
        exact .chunk hkept hpending
      · obtain ⟨later, htake, hlater⟩ := ih (count + 1 - front.length)
        have hle : front.length ≤ count + 1 := Nat.le_of_not_lt hlong
        refine ⟨later, ?_, ?_⟩
        · rw [if_neg hlong, htake, List.take_append, List.take_of_length_le hle]
          rfl
        · rw [List.drop_append, List.drop_of_length_le hle, List.nil_append]
          exact hlater
  | @failure error bytes pending htransient hpending ih =>
    cases count with
    | zero => exact ⟨_, by simp [Delivery.take], .failure htransient hpending⟩
    | succ count =>
      obtain ⟨later, htake, hlater⟩ := ih (count + 1)
      exact ⟨later, by rw [Delivery.take, htransient, if_pos rfl, htake], hlater⟩

end Delivery

open Delivery

namespace StreamSource

variable {s : StreamSource} {bytes word : Bytes} {declared : Nat}

theorem readOne_of_delivers_nil (hend : s.atEnd = false) (h : Delivers s.pending []) :
    ∃ later, s.readOne = (.ok none, { s with pending := later, atEnd := true }) := by
  obtain ⟨later, htake, -⟩ := h.take 4
  refine ⟨later, ?_⟩
  rw [readOne, hend, if_neg Bool.false_ne_true, htake]
  rfl

/-- What is read after the size word of a record that is not all there. -/
theorem readRest_of_length_lt (h : Delivers s.pending bytes)
    (hshort : bytes.length < declared - 4) :
    ∃ s', s.readRest word declared =
      (.error (.malformedRecord (.truncated declared (bytes.length + 4))), s') := by
  obtain ⟨later, htake, -⟩ := h.take (declared - 4)
  rw [List.take_of_length_le (Nat.le_of_lt hshort)] at htake
  rw [readRest, htake]
  dsimp only
  rw [if_pos hshort]
  exact ⟨_, rfl⟩

/-- What is read after the size word of a record that is all there. -/
theorem readRest_of_le_length (h : Delivers s.pending bytes) (hlen : declared - 4 ≤ bytes.length) :
    ∃ later, Delivers later (bytes.drop (declared - 4)) ∧
      s.readRest word declared =
        ((((Record.decode s.version (word ++ bytes.take (declared - 4))).map some).mapError
          .malformedRecord), { s with pending := later }) := by
  obtain ⟨later, htake, hlater⟩ := h.take (declared - 4)
  refine ⟨later, hlater, ?_⟩
  have hwhole : ¬ (bytes.take (declared - 4)).length < declared - 4 := by
    rw [List.length_take_of_le hlen]
    omega
  rw [readRest, htake]
  dsimp only
  rw [if_neg hwhole]
  cases Record.decode s.version (word ++ bytes.take (declared - 4)) <;> rfl

/-- The next record of a stream source is the one at the front of the bytes to come, and the
    bytes after it come next. -/
theorem readOne_of_delivers (hend : s.atEnd = false) (h : Delivers s.pending bytes)
    (hne : bytes ≠ []) :
    match Record.splitWithin s.maxRecordSize bytes with
    | .error e => ∃ s', s.readOne = (.error (.malformedRecord e), s')
    | .ok (block, rest) => ∃ later, Delivers later rest ∧
        s.readOne = (((Record.decodeWire s.version Record.maxDepth block).map some).mapError
          .malformedRecord, { s with pending := later }) := by
  obtain ⟨later, htake, hlater⟩ := h.take 4
  have hopen : ¬ s.atEnd = true := by simp [hend]
  have hempty : (bytes.take 4).isEmpty = false := by simpa using hne
  rw [readOne, if_neg hopen, htake]
  dsimp only
  rw [hempty, if_neg Bool.false_ne_true]
  by_cases hword : bytes.length < 4
  · rw [Record.splitWithin_of_length_lt hword, List.take_of_length_le (Nat.le_of_lt hword),
      if_pos hword]
    exact ⟨_, rfl⟩
  · have hfour : 4 ≤ bytes.length := Nat.le_of_not_lt hword
    have hdeclared : toNat (bytes.take 4) = wordAt 0 bytes := by rw [wordAt, List.drop_zero]
    rw [List.length_take_of_le hfour, if_neg (Nat.lt_irrefl 4), hdeclared]
    rw [Record.splitWithin_of_le_length hfour]
    by_cases hsmall : wordAt 0 bytes < recordHeaderSize
    · rw [if_pos hsmall, if_pos hsmall]
      exact ⟨_, rfl⟩
    rw [if_neg hsmall, if_neg hsmall]
    by_cases hlarge : s.maxRecordSize < wordAt 0 bytes
    · rw [if_pos hlarge, if_pos hlarge]
      exact ⟨_, rfl⟩
    rw [if_neg hlarge, if_neg hlarge]
    have hheader : 8 ≤ wordAt 0 bytes := Nat.le_of_not_lt hsmall
    by_cases hshort : bytes.length < wordAt 0 bytes
    · rw [if_pos hshort]
      have hrest : (bytes.drop 4).length < wordAt 0 bytes - 4 := by
        rw [List.length_drop]
        omega
      have hread := @readRest_of_length_lt { s with pending := later } _ (bytes.take 4) _ hlater
        hrest
      rw [List.length_drop, Nat.sub_add_cancel hfour] at hread
      exact hread
    · rw [if_neg hshort]
      have hrest : wordAt 0 bytes - 4 ≤ (bytes.drop 4).length := by
        rw [List.length_drop]
        omega
      obtain ⟨later', hlater', hread⟩ :=
        @readRest_of_le_length { s with pending := later } _ (bytes.take 4) _ hlater hrest
      have hjoined : bytes.take 4 ++ (bytes.drop 4).take (wordAt 0 bytes - 4) =
          bytes.take (wordAt 0 bytes) := by
        rw [← List.take_add, Nat.add_sub_cancel' (by omega)]
      have hblock : Record.IsBlock (bytes.take (wordAt 0 bytes)) :=
        (Record.append_isBlock_iff.2 ⟨hheader, Nat.le_of_not_lt hshort, rfl, rfl⟩).2
      rw [hjoined, Record.decode_eq_decodeWire hblock] at hread
      rw [List.drop_drop, Nat.add_sub_cancel' (by omega)] at hlater'
      exact ⟨later', hlater', hread⟩

theorem readOne_of_decodeWithin_ok {r : Record} {used : Nat} (hend : s.atEnd = false)
    (h : Delivers s.pending bytes)
    (hread : Record.decodeWithin s.version s.maxRecordSize bytes = .ok (r, used)) :
    ∃ later, Delivers later (bytes.drop used) ∧
      s.readOne = (.ok (some r), { s with pending := later }) := by
  obtain ⟨block, rest, hsplit, hwire, rfl⟩ := Record.decodeWithin_eq_ok.1 hread
  obtain ⟨rfl, hblock, -⟩ := Record.splitWithin_eq_ok.1 hsplit
  have hne : block ++ rest ≠ [] := List.append_ne_nil_of_left_ne_nil hblock.ne_nil rest
  have hone := readOne_of_delivers hend h hne
  rw [hsplit] at hone
  dsimp only at hone
  rw [hwire] at hone
  rw [List.drop_left]
  exact hone

theorem readOne_of_decodeWithin_error {e : RecordError} (hend : s.atEnd = false)
    (h : Delivers s.pending bytes) (hne : bytes ≠ [])
    (hread : Record.decodeWithin s.version s.maxRecordSize bytes = .error e) :
    ∃ s', s.readOne = (.error (.malformedRecord e), s') := by
  have hone := readOne_of_delivers hend h hne
  rw [Record.decodeWithin] at hread
  cases hsplit : Record.splitWithin s.maxRecordSize bytes with
  | error e' =>
    rw [hsplit] at hone hread
    cases hread
    exact hone
  | ok parts =>
    rw [hsplit] at hone hread
    dsimp only at hone hread
    obtain ⟨later, -, hone⟩ := hone
    split at hread
    · rename_i hwire
      cases hread
      rw [hwire] at hone
      exact ⟨_, hone⟩
    · cases hread

/-- A source hands out these records one after the other, and has not seen the end after any
    of them. -/
inductive HandsOut : StreamSource → List Record → StreamSource → Prop
  | nothing (s : StreamSource) : HandsOut s [] s
  | next {s s' last : StreamSource} {r : Record} {rs : List Record} :
      s.readOne = (.ok (some r), s') → s'.atEnd = false → HandsOut s' rs last →
      HandsOut s (r :: rs) last

/-- Whatever the pieces in which the bytes arrive, a stream source hands out the records of the
    bytes up to their end or the first error, and then says which of the two it was. A source in
    memory made from the same bytes has the same records, or fails with the same error. -/
theorem handsOut_scan {version : FormatVersion} {limit : Nat} {pending : List Delivery}
    (h : Delivers pending bytes) (hsizes : Record.SizesWithin version limit bytes) :
    ∃ last, HandsOut ⟨pending, version, limit, false⟩ (Record.scan version bytes).1 last ∧
      match (Record.scan version bytes).2 with
      | none =>
        last.readOne.1 = .ok none ∧ last.readOne.2.atEnd = true ∧
          MemorySource.ofBytes version bytes = .ok { records := (Record.scan version bytes).1 }
      | some e =>
        last.readOne.1 = .error (.malformedRecord e) ∧
          MemorySource.ofBytes version bytes = .error e := by
  -- The source in memory keeps or loses what the scan found; the rest is about the stream.
  suffices hstream : ∃ last,
      HandsOut ⟨pending, version, limit, false⟩ (Record.scan version bytes).1 last ∧
        match (Record.scan version bytes).2 with
        | none => last.readOne.1 = .ok none ∧ last.readOne.2.atEnd = true
        | some e => last.readOne.1 = .error (.malformedRecord e) by
    obtain ⟨last, hout, hlast⟩ := hstream
    refine ⟨last, hout, ?_⟩
    rw [MemorySource.ofBytes, Record.decodeAll_eq_scan]
    generalize Record.scan version bytes = scanned at hlast
    obtain ⟨rs, _ | e⟩ := scanned
    · exact ⟨hlast.1, hlast.2, rfl⟩
    · exact ⟨hlast, rfl⟩
  fun_induction Record.scan version bytes generalizing pending with
  | case1 bytes hempty =>
    obtain rfl : bytes = [] := List.isEmpty_iff.1 hempty
    obtain ⟨later, hread⟩ := readOne_of_delivers_nil (s := ⟨pending, version, limit, false⟩) rfl h
    exact ⟨_, .nothing _, by rw [hread], by rw [hread]⟩
  | case2 bytes hempty e hdecode =>
    obtain ⟨hfront, -⟩ := Record.sizesWithin_iff.1 hsizes
    have hne : bytes ≠ [] := fun hnil => hempty (List.isEmpty_iff.2 hnil)
    have hwithin := (Record.decodeWithin_of_frontWithin hfront).trans hdecode
    obtain ⟨s', hread⟩ := readOne_of_decodeWithin_error
      (s := ⟨pending, version, limit, false⟩) rfl h hne hwithin
    exact ⟨_, .nothing _, by rw [hread]⟩
  | case3 bytes hempty r used hdecode _ rs stopped hscan ih =>
    obtain ⟨hfront, hafter⟩ := Record.sizesWithin_iff.1 hsizes
    have hwithin := (Record.decodeWithin_of_frontWithin hfront).trans hdecode
    obtain ⟨later, hlater, hread⟩ := readOne_of_decodeWithin_ok
      (s := ⟨pending, version, limit, false⟩) rfl h hwithin
    rw [hscan] at ih
    obtain ⟨last, hout, hlast⟩ := ih hlater (hafter r used hdecode)
    exact ⟨last, .next hread rfl hout, hlast⟩

/-- An event, and two bytes of a record that never comes. -/
def cutShort : Bytes := [9, 0, 0, 0, 30, 0, 0, 0, 7, 5, 0]

/-- The event is cut in its size word and is followed in the same chunk by what comes after it. -/
def cutShortPieces : List Delivery :=
  [.failure ⟨.wouldBlock, "would block"⟩, .chunk [9, 0], .failure ⟨.interrupted, "interrupted"⟩,
   .chunk [0, 0, 30, 0, 0, 0, 7, 5], .chunk [0]]

theorem handsOut_scan_cutShort :
    Delivers cutShortPieces cutShort ∧ Record.SizesWithin .v10 16 cutShort ∧
      ∃ r last, HandsOut ⟨cutShortPieces, .v10, 16, false⟩ [r] last ∧
        r.wire = some (cutShort.take 9) ∧
        last.readOne.1 = .error (.malformedRecord (.truncated 8 2)) := by
  have hpieces : Delivers cutShortPieces cutShort :=
    .failure rfl (.chunk (by simp) (.failure rfl (.chunk (by simp) (.chunk (by simp) .done))))
  obtain ⟨r, hr, hwire⟩ : ∃ r, Record.decodePrefix .v10 cutShort = .ok (r, 9) ∧
      r.wire = some (cutShort.take 9) := ⟨_, rfl, rfl⟩
  have hrest : Record.decodePrefix .v10 (cutShort.drop 9) = .error (.truncated 8 2) := rfl
  have hsizes : Record.SizesWithin .v10 16 cutShort := by
    refine Record.sizesWithin_iff.2 ⟨?_, ?_⟩
    · rintro declared hpeek
      obtain rfl := Option.some.inj hpeek
      decide
    · intro r' used hused
      rw [hr] at hused
      cases hused
      refine Record.sizesWithin_iff.2 ⟨by rintro declared ⟨⟩, fun r' used hused => ?_⟩
      rw [hrest] at hused
      cases hused
  have hscan : Record.scan .v10 cutShort = ([r], some (.truncated 8 2)) := by
    rw [Record.scan_of_ok hr, Record.scan_of_error rfl hrest]
  obtain ⟨last, hout, hlast⟩ := handsOut_scan hpieces hsizes
  rw [hscan] at hout hlast
  exact ⟨hpieces, hsizes, r, last, hout, hwire, hlast.1⟩

end StreamSource

end DaqStream
