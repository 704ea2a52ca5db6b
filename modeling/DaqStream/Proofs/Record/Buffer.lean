import DaqStream.Proofs.Record.Reachable

/-!
# Writing into a buffer

A record is put at the end of a buffer field by field, each child of a composite record in its
turn, and every record ends with a check: as many bytes have come to the buffer as its size says.
The sizes are computed apart from the fields, so the check could fail. It does not, and what has
been put there, over all steps, is the encoding of the record (`write_reachable`).
-/

namespace DaqStream

open LittleEndian

/-- Steps that write to the end of a buffer; a check that fails ends them, with nothing. -/
abbrev Writing := StateT Bytes Option Unit

namespace Writing

/-- Bytes at the end of the buffer. -/
def put (bytes : Bytes) : Writing := modify (· ++ bytes)

/-- The steps, and then a check that as many bytes have come to the buffer as expected. -/
def checked (expected : Nat) (steps : Writing) : Writing := do
  let start := (← get).length
  steps
  guard ((← get).length - start = expected)

variable {front rest bytes buffer : Bytes}

@[simp] theorem put_apply : put bytes buffer = some ((), buffer ++ bytes) := rfl

/-- Two steps that put bytes there are one. -/
@[simp] theorem put_put : (do put front; put rest) = put (front ++ rest) := by
  funext buffer
  show some ((), buffer ++ front ++ rest) = _
  rw [List.append_assoc, put_apply]

theorem pure_eq_put : (pure () : Writing) = put [] := by
  funext buffer
  rw [put_apply, List.append_nil]
  rfl

@[simp] theorem forM_put {α : Type} (item : α → Bytes) (xs : List α) :
    (forM xs fun x => put (item x)) = put (xs.flatMap item) := by
  induction xs with
  | nil => exact pure_eq_put
  | cons x xs ih => rw [List.forM_cons, ih, put_put, List.flatMap_cons]

/-- The bytes that were there before are not counted. -/
theorem checked_put_apply {expected : Nat} :
    checked expected (put bytes) buffer =
      if bytes.length = expected then some ((), buffer ++ bytes) else none := by
  have hcounted : (buffer ++ bytes).length - buffer.length = bytes.length := by
    rw [List.length_append, Nat.add_sub_cancel_left]
  show (guard ((buffer ++ bytes).length - buffer.length = expected) : Writing) _ = _
  rw [hcounted, guard]
  split
  · rfl
  · rfl

theorem checked_put {expected : Nat} (h : bytes.length = expected) :
    checked expected (put bytes) = put bytes := by
  funext buffer
  rw [checked_put_apply, if_pos h, put_apply]

end Writing

open Writing

section Writers

namespace BodyHeader

/-- The four words count themselves and the extension. -/
def write (extension : Bytes) (h : BodyHeader) : Writing := do
  put (u32 (UInt32.ofNat (20 + extension.length)))
  put (u64 h.timestamp)
  put (u32 h.sourceId)
  put (u32 h.barrierType)
  put extension

/-- The first generation has no header word. The word of an empty header is 0 in the second and
    counts itself in the third. -/
def writeSection (version : FormatVersion) (header : Option BodyHeader) (extension : Bytes) :
    Writing :=
  if version ≠ .v10 then
    match header with
    | some h => h.write extension
    | none => put (u32 (if version = .v12 then 4 else 0))
  else pure ()

end BodyHeader

namespace StateChange

/-- A title that is too long is cut, and one that is too short filled up. -/
def writeTitle (title : Bytes) : Writing := do
  let stop := min title.length 80
  put (title.take stop)
  put (List.replicate (81 - stop) 0)

/-- The divisor came with the second generation, and the producer with the third. -/
def write (version : FormatVersion) (s : StateChange) : Writing := do
  put (u32 s.runNumber)
  put (u32 s.timeOffset)
  put (u32 s.unixTime)
  if version ≠ .v10 then
    put (u32 s.offsetDivisor)
  writeTitle s.title
  if version = .v12 then
    put (u32 s.producerId)

end StateChange

namespace Scaler

/-- The values stand at the end, behind their count and what later generations added. -/
def write (version : FormatVersion) (s : Scaler) : Writing := do
  put (u32 s.intervalStart)
  put (u32 s.intervalEnd)
  put (u32 s.unixTime)
  if version ≠ .v10 then
    put (u32 s.intervalDivisor)
  put (u32 (UInt32.ofNat s.values.length))
  if version ≠ .v10 then
    put (u32 (if s.isIncremental then 1 else 0))
  if version = .v12 then
    put (u32 s.producerId)
  s.values.forM fun value => put (u32 value)

end Scaler

namespace TextList

/-- Every string is followed by a zero byte. -/
def write (version : FormatVersion) (t : TextList) : Writing := do
  put (u32 t.timeOffset)
  put (u32 t.unixTime)
  put (u32 (UInt32.ofNat t.strings.length))
  if version ≠ .v10 then
    put (u32 t.offsetDivisor)
  if version = .v12 then
    put (u32 t.producerId)
  t.strings.forM fun s => do
    put s
    put [0]

end TextList

namespace EventCount

/-- The first generation has no divisor between the two times. -/
def write (version : FormatVersion) (c : EventCount) : Writing := do
  put (u32 c.timeOffset)
  if version = .v10 then
    put (u32 c.unixTime)
  else
    put (u32 c.offsetDivisor)
    put (u32 c.unixTime)
  put (u64 c.eventCount)
  if version = .v12 then
    put (u32 c.producerId)

end EventCount

namespace Fragment

/-- A fragment of the first generation has a header of its own, with a timestamp of all ones if
    there is none. -/
def write (version : FormatVersion) (header : Option BodyHeader) (f : Fragment) : Writing := do
  if version = .v10 then
    let h := header.getD ⟨0xffffffffffffffff, 0, 0⟩
    put (u64 h.timestamp)
    put (u32 h.sourceId)
    put (u32 (UInt32.ofNat f.payload.length))
    put (u32 h.barrierType)
  put f.payload

end Fragment

namespace GlomParameters

/-- The flag takes two bytes. -/
def write (g : GlomParameters) : Writing := do
  put (u64 g.coincidenceTicks)
  put (u16 (if g.isBuilding then 1 else 0))
  put (u16 g.timestampPolicy.code)

end GlomParameters

namespace DataFormat

/-- The major version comes first. -/
def write (f : DataFormat) : Writing := do
  put (u16 f.major)
  put (u16 f.minor)

end DataFormat

mutual
/-- A record that was read is put there as the bytes it was read from. -/
def Record.write : Record → Writing
  | ⟨version, header, extension, body, wire⟩ =>
    match wire with
    | some bytes => put bytes
    | none =>
      let size := Record.size ⟨version, header, extension, body, none⟩
      checked size do
        put (u32 (UInt32.ofNat size))
        put (u32 body.kind.typeTag)
        BodyHeader.writeSection version header extension
        body.write version header

/-- The fields behind the header words; bytes that are not told apart are put there as they are. -/
def Body.write (version : FormatVersion) (header : Option BodyHeader) : Body Record → Writing
  | .stateChange change => change.write version
  | .scaler readout => readout.write version
  | .text list => list.write version
  | .physicsEvent payload => put payload
  | .physicsEventCount count => count.write version
  | .fragment part => part.write version header
  | .composite _ children => Record.writeAll children
  | .glomParameters parameters => parameters.write
  | .dataFormat format => format.write
  | .abnormalEnd => pure ()
  | .unknown _ payload => put payload

/-- The children of a composite record, one after the other. -/
def Record.writeAll : List Record → Writing
  | [] => pure ()
  | r :: rs => do
    r.write
    Record.writeAll rs
end

end Writers

section Bodies

variable (version : FormatVersion)

theorem BodyHeader.write_eq_put (extension : Bytes) (h : BodyHeader) :
    h.write extension = put (u32 (UInt32.ofNat (20 + extension.length)) ++ u64 h.timestamp ++
      u32 h.sourceId ++ u32 h.barrierType ++ extension) := by
  simp [write]

theorem BodyHeader.writeSection_eq_put (header : Option BodyHeader) (extension : Bytes) :
    writeSection version header extension = put (sectionBytes version header extension) := by
  cases version with
  | v10 => exact pure_eq_put
  | v11 | v12 =>
    cases header with
    | some h => exact h.write_eq_put extension
    | none => rfl

theorem StateChange.writeTitle_eq_put (title : Bytes) :
    writeTitle title = put (titleBytes title) := by
  have hkept : title.take (min title.length 80) = title.take 80 := by
    rw [Nat.min_comm, ← List.take_eq_take_min]
  rw [writeTitle, titleBytes, put_put, hkept, maxTitle, titleField, List.length_take, Nat.min_comm]

theorem StateChange.write_eq_put (s : StateChange) :
    s.write version = put (s.payload version) := by
  cases version <;> simp [write, payload, sinceV11, onlyV12, writeTitle_eq_put]

theorem Scaler.write_eq_put (s : Scaler) : s.write version = put (s.payload version) := by
  cases version <;> simp [write, payload, sinceV11, onlyV12]

theorem TextList.write_eq_put (t : TextList) : t.write version = put (t.payload version) := by
  cases version <;> simp [write, payload, sinceV11, onlyV12]

theorem EventCount.write_eq_put (c : EventCount) : c.write version = put (c.payload version) := by
  cases version <;> simp [write, payload, sinceV11, onlyV12]

theorem Fragment.write_eq_put (header : Option BodyHeader) (f : Fragment) :
    f.write version header = put (f.payloadBytes version header) := by
  cases version <;> simp [write, payloadBytes, missingHeader, nullTimestamp]

theorem GlomParameters.write_eq_put (g : GlomParameters) : g.write = put g.payload := by
  simp [write, payload]

theorem DataFormat.write_eq_put (f : DataFormat) : f.write = put f.payload := by
  simp [write, payload]

end Bodies

section Records

mutual
theorem Record.write_eq_put (r : Record) : r.write = put r.encode := by
  obtain ⟨version, header, extension, body, wire⟩ := r
  cases wire with
  | some bytes => rw [Record.write, Record.encode]
  | none =>
    have hlength := Record.length_encode ⟨version, header, extension, body, none⟩
    rw [Record.encode, List.append_assoc, List.append_assoc] at hlength
    rw [Record.write, Record.encode, BodyHeader.writeSection_eq_put,
      Body.write_eq_put version header body, put_put, put_put, put_put, List.append_assoc,
      List.append_assoc]
    exact checked_put hlength

theorem Body.write_eq_put (version : FormatVersion) (header : Option BodyHeader)
    (body : Body Record) : body.write version header = put (body.payload version header) := by
  cases body with
  | stateChange change => exact change.write_eq_put version
  | scaler readout => exact readout.write_eq_put version
  | text list => exact list.write_eq_put version
  | physicsEvent payload => rfl
  | physicsEventCount count => exact count.write_eq_put version
  | fragment part => exact part.write_eq_put version header
  | composite base children => exact Record.writeAll_eq_put children
  | glomParameters parameters => exact parameters.write_eq_put
  | dataFormat format => exact format.write_eq_put
  | abnormalEnd => exact pure_eq_put
  | unknown typeTag payload => rfl

theorem Record.writeAll_eq_put (rs : List Record) :
    Record.writeAll rs = put (Record.encodeAll rs) := by
  cases rs with
  | nil => exact pure_eq_put
  | cons r rs =>
    rw [Record.writeAll, Record.encodeAll, r.write_eq_put, Record.writeAll_eq_put rs, put_put]
end

end Records

namespace Record

/-- The size and the type tag stand in front of every record, of one that was read as well. -/
theorem encode_eq_words {r : Record} (h : Made r) :
    ∃ rest, r.encode = u32 (UInt32.ofNat r.size) ++ u32 r.typeTag ++ rest := by
  have hbuilt {version : FormatVersion} {header : Option BodyHeader} {body : Body Record} :
      ∃ rest, (assemble version header body).encode =
        u32 (UInt32.ofNat (assemble version header body).size) ++ u32 body.kind.typeTag ++
          rest := by
    rw [assemble, encode, List.append_assoc]
    exact ⟨_, rfl⟩
  cases h with
  | @decoded version _ _ hdecode =>
    obtain ⟨used, hprefix⟩ := decode_eq_ok.1 hdecode
    obtain ⟨block, _, ⟨-, hblock⟩, hread, -⟩ := decodePrefix_eq_ok.1 hprefix
    obtain ⟨header, front, payload, hlies⟩ := liesIn_of_decodeWire hblock hread
    have hwire := wire_of_decodeWire hread
    refine ⟨front ++ payload, ?_⟩
    rw [encode_of_wire hwire, size_of_wire hwire, ← List.append_assoc]
    exact hlies.wire_eq
  | physicsEvent => exact hbuilt
  | built _ hbuild =>
    obtain ⟨-, -, rfl⟩ := build_eq_ok.1 hbuild
    exact hbuilt

/-- Writing a record to a buffer appends the encoding of the record to it, and no check on the way
    fails. The encoding is as long as the size says, and begins with the size, if a word can hold
    it, and with the type tag, from which the kind is read again. -/
theorem write_reachable {r : Record} (h : Reachable r) (buffer : Bytes) :
    r.write buffer = some ((), r.encodeInto buffer) ∧
      r.encodeInto buffer = buffer ++ r.encode ∧
      r.encode.length = r.size ∧
      (r.size < 2 ^ 32 →
        wordAt 0 r.encode = r.size ∧ wordAt 4 r.encode = r.typeTag.toNat ∧
          RecordKind.ofTag r.version (UInt32.ofNat (wordAt 4 r.encode)) = r.kind) := by
  refine ⟨?_, rfl, length_encode r, ?_⟩
  · rw [write_eq_put, put_apply, encodeInto]
  · intro hsize
    obtain ⟨rest, hwords⟩ := encode_eq_words h.made
    have hfirst : wordAt 0 r.encode = r.size := by
      rw [hwords, List.append_assoc, wordAt_zero_u32_append, UInt32.toNat_ofNat_of_lt' hsize]
    have hsecond : wordAt 4 r.encode = r.typeTag.toNat := by
      have hdrop := wordAt_drop 0 4 r.encode
      rw [hwords, List.append_assoc, List.drop_left' (length_u32 _),
        wordAt_zero_u32_append] at hdrop
      rw [hwords, List.append_assoc, ← hdrop]
    refine ⟨hfirst, hsecond, ?_⟩
    rw [hsecond, UInt32.ofNat_toNat]
    exact h.made.wellFormed.ofTag_typeTag

/-- A record built around one that was read, after a byte that is there already. -/
theorem write_reachable_around :
    ∃ r, composite .v12 31 none [compositeExample] = .ok r ∧ Reachable r ∧ r.size < 2 ^ 32 ∧
      r.write [170] =
        some ((), [170, 36, 0, 0, 0, 31, 128, 0, 0, 4, 0, 0, 0] ++ compositeExampleBlock) ∧
      r.encode.length = 36 ∧ wordAt 4 r.encode = 0x801F := by
  have hread : Reachable compositeExample := .decoded decode_compositeExampleBlock
  have hbuild : composite .v12 31 none [compositeExample] =
      .ok (assemble .v12 none (.composite 31 [compositeExample])) := rfl
  have hreach := Reachable.composite (List.forall_mem_singleton.2 hread) hbuild
  have hsize : (assemble .v12 none (.composite 31 [compositeExample])).size = 36 := rfl
  have hlt : (assemble .v12 none (.composite 31 [compositeExample])).size < 2 ^ 32 := by
    rw [hsize]
    decide
  obtain ⟨hwrite, happend, hlength, hwords⟩ := write_reachable hreach [170]
  obtain ⟨-, htag, -⟩ := hwords hlt
  refine ⟨_, hbuild, hreach, hlt, ?_, ?_, ?_⟩
  · rw [hwrite, happend]
    rfl
  · rw [hlength, hsize]
  · rw [htag]
    rfl

end Record

end DaqStream
