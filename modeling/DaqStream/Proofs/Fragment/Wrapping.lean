import DaqStream.Proofs.Fragment.Flat

/-!
# Wrapping a record into a fragment

A fragment record says of the record in it what the header of a flat fragment would. The first
generation has no body headers and writes that header in front of the payload; the others write a
body header (`encode_wrap`). Either takes as many bytes, is read back, and gives out the record
that it was made for (`carries_wrapped`).
-/

namespace DaqStream

open LittleEndian

namespace Record

variable {r : Record} {d : UInt32}

/-- The body header of a fragment record, with what the header of the flat fragment holds. -/
def wrapHeader (r : Record) (d : UInt32) : BodyHeader where
  timestamp := (r.flatten d).1.timestamp
  sourceId := (r.flatten d).1.sourceId
  barrierType := (r.flatten d).1.barrierType

theorem wrap_eq (r : Record) (d : UInt32) :
    r.wrap d = ⟨r.version, some (r.wrapHeader d), [], .fragment ⟨r.encode, false⟩, none⟩ := by
  unfold wrap assemble
  simp only [Body.isFragment, Bool.not_true, Bool.and_false, Bool.false_eq_true, if_false]
  rfl

/-- Where there are body headers, the section of one takes as many bytes as the header that the
    first generation writes. -/
theorem size_wrap (r : Record) (d : UInt32) : (r.wrap d).size = r.size + 28 := by
  have hlength := length_encode r
  rw [wrap_eq, size, Body.payloadSize, BodyHeader.sectionSize, recordHeaderSize, hlength]
  cases r.version with
  | v10 =>
    simp only [FormatVersion.hasHeaderWord, Bool.false_eq_true, if_false, if_true]
    omega
  | v11 | v12 =>
    simp only [FormatVersion.hasHeaderWord, if_true, reduceCtorEq, if_false, BodyHeader.wireSize,
      List.length_nil]
    omega

/-- The header of the flat fragment stands before the record, in the words of its generation. -/
theorem encode_wrap (r : Record) (d : UInt32) :
    (r.wrap d).encode =
      u32 (UInt32.ofNat (r.size + 28)) ++ u32 RecordKind.fragment.typeTag ++
        (if r.version = .v10 then (r.flatten d).1.encode
          else u32 20 ++ u64 (r.wrapHeader d).timestamp ++ u32 (r.wrapHeader d).sourceId ++
            u32 (r.wrapHeader d).barrierType) ++
        r.encode := by
  have hlength := length_encode r
  have hsize := size_wrap r d
  rw [wrap_eq] at hsize ⊢
  rw [encode, hsize, Body.payload, Fragment.payloadBytes, BodyHeader.sectionBytes, hlength]
  cases hversion : r.version with
  | v10 =>
    simp only [FormatVersion.hasHeaderWord, Bool.false_eq_true, if_false, if_true,
      List.append_nil, Option.getD_some, FragmentHeader.encode, ← List.append_assoc]
    rfl
  | v11 | v12 =>
    simp only [FormatVersion.hasHeaderWord, if_true, reduceCtorEq, if_false, List.append_nil,
      ← List.append_assoc]
    rfl

theorem norm_wrap (r : Record) (d : UInt32) :
    (r.wrap d).norm = { r.wrap d with wire := some (r.wrap d).encode } := by
  rw [wrap_eq, norm, Body.norm, Body.normHeader]
  split
  · rfl
  · rfl

/-- A fragment record is read back as it is, whatever it carries. -/
theorem decode_encode_wrap (hsize : r.size + 28 < 2 ^ 32) (d : UInt32) :
    decode r.version (r.wrap d).encode =
      .ok { r.wrap d with wire := some (r.wrap d).encode } := by
  obtain ⟨hblock, hread⟩ := (made_wrap r d).readsBack (by rw [size_wrap]; exact hsize)
  have hversion : (r.wrap d).version = r.version := rfl
  have htexts : (r.wrap d).texts = [] := by
    simp [wrap_eq, texts, Body.texts]
  have hnesting : (r.wrap d).nesting = 0 := by
    simp [wrap_eq, nesting, Body.nesting]
  rw [hversion] at hread
  rw [decode_block hblock, hread, htexts, hnesting, norm_wrap]
  simp

theorem same_wire (r : Record) (wire : Option Bytes) : ({ r with wire } == r) = true := by
  obtain ⟨version, header, extension, body, _⟩ := r
  show Record.same _ _ = true
  simp [Record.same, Body.same_self]

/-- What is read from the encoding of a record keeps that encoding, and is the record itself if
    that was read. -/
theorem wire_of_decode_encode {q : Record} (h : Made r) (hsize : r.size < 2 ^ 32)
    (hread : decode r.version r.encode = .ok q) :
    q.wire = some r.encode ∧ ∀ block, r.wire = some block → q = r := by
  obtain ⟨hblock, hback⟩ := h.readsBack hsize
  have hwire := (decode_block hblock).1 hread
  refine ⟨wire_of_decodeWire hwire, ?_⟩
  intro block hretained
  obtain ⟨-, -, hnorm⟩ := (hback maxDepth q).1 hwire
  rw [hnorm, norm_of_wire hretained]

/-- The fragment record of a record that can be read again takes 28 bytes more, is read back as it
    is, and says in its body header what the header of the flat fragment says; the first generation
    has that header itself in front of the record. What it carries is read as what the encoding of
    the record is read as, before and after it was written, and keeps that encoding. -/
theorem carries_wrapped {r q : Record} (h : Reachable r)
    (hread : decode r.version r.encode = .ok q) (hsize : r.size + 28 < 2 ^ 32) (d : UInt32) :
    let w := r.wrap d
    let flat := (r.flatten d).1
    w.size = r.size + 28 ∧
    (∃ w', decode w.version w.encode = .ok w' ∧ (w' == w) = true ∧ w'.header = w.header ∧
      ∃ part, w.body = .fragment part ∧ w'.body = .fragment part ∧
        part.unwrap w.version = .ok q) ∧
    w.header = some ⟨flat.timestamp, flat.sourceId, flat.barrierType⟩ ∧
    (w.version = .v10 → w.encode.drop 8 = flat.encode ++ r.encode) ∧
    q.wire = some r.encode ∧ ∀ block, r.wire = some block → q = r := by
  intro w flat
  refine ⟨size_wrap r d, ⟨_, decode_encode_wrap hsize d, same_wire _ _, rfl, _, rfl, rfl, hread⟩,
    ?_, ?_, ?_⟩
  · rw [show w = _ from wrap_eq r d]
    rfl
  · intro hfirst
    have hversion : r.version = .v10 := hfirst
    rw [show w.encode = _ from encode_wrap r d, if_pos hversion, List.append_assoc]
    exact List.drop_left' (by rw [List.length_append, length_u32, length_u32])
  · exact wire_of_decode_encode h.made (by omega) hread

/-- A fragment of the first generation around a physics event, as it is read. -/
def fragmentExample : Record :=
  { (physicsEvent .v10 none [1, 2]).wrap 3 with
    wire := some ((physicsEvent .v10 none [1, 2]).wrap 3).encode }

/-- A fragment in a fragment. -/
theorem carries_wrapped_fragment :
    Reachable fragmentExample ∧ decode .v10 fragmentExample.encode = .ok fragmentExample ∧
      fragmentExample.size + 28 < 2 ^ 32 ∧ (fragmentExample.wrap 4).size = 66 ∧
      (fragmentExample.wrap 4).header = some ⟨nullTimestamp, 3, 0⟩ ∧
      ∃ part, (fragmentExample.wrap 4).body = .fragment part ∧
        part.unwrap .v10 = .ok fragmentExample := by
  have hread : decode .v10 fragmentExample.encode = .ok fragmentExample := by
    rw [encode_of_wire (r := fragmentExample) rfl]
    exact decode_encode_wrap (r := physicsEvent .v10 none [1, 2]) (by decide) 3
  have hreach : Reachable fragmentExample := .decoded hread
  have hsize : fragmentExample.size = 38 := by
    rw [size_of_wire (r := fragmentExample) rfl, length_encode, size_wrap]
    rfl
  have hlt : fragmentExample.size + 28 < 2 ^ 32 := by
    rw [hsize]
    decide
  obtain ⟨hwrapped, ⟨_, -, -, -, part, hbody, -, hunwrap⟩, hheader, -, -, -⟩ :=
    carries_wrapped hreach hread hlt 4
  refine ⟨hreach, hread, hlt, ?_, ?_, part, hbody, hunwrap⟩
  · rw [hwrapped, hsize]
  · rw [hheader]
    rfl

end Record

end DaqStream
