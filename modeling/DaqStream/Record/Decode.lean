import DaqStream.Record.Encode
import DaqStream.Record.Field

/-!
# Reading records

A record declares its own size. The reader never looks past that size, and never trusts it
beyond the bytes that are there. Composite records are followed to a fixed depth. A record
that was read keeps its bytes.
-/

namespace DaqStream

namespace Record

/-- Deepest nesting of composite records that is followed. -/
def maxDepth : Nat := 32

/-- The declared size at the front of `bytes`, if the size word is there. -/
def peekSize? (bytes : Bytes) : Option UInt32 :=
  (Bytes.cut 4 bytes).map fun (word, _) => UInt32.ofNat (LittleEndian.toNat word)

/-- The bytes of the record at the front of `bytes`, and the bytes after it. -/
def split (bytes : Bytes) : Except RecordError (Bytes × Bytes) :=
  match peekSize? bytes with
  | none => .error (.truncated recordHeaderSize bytes.length)
  | some declared =>
    if declared.toNat < recordHeaderSize then .error (.tooSmall declared)
    else match Bytes.cut declared.toNat bytes with
      | some parts => .ok parts
      | none => .error (.truncated declared.toNat bytes.length)

/-- A successful split loses no byte, and the record has at least its two header words. -/
theorem split_eq_ok {bytes block rest : Bytes} (h : split bytes = .ok (block, rest)) :
    bytes = block ++ rest ∧ recordHeaderSize ≤ block.length := by
  unfold split at h
  split at h
  · simp at h
  · split at h
    · simp at h
    · split at h
      · rename_i hsize parts hcut
        simp only [Except.ok.injEq] at h
        subst h
        obtain ⟨rfl, hlen⟩ := Bytes.cut_eq_some_iff.1 hcut
        exact ⟨rfl, by omega⟩
      · simp at h

theorem length_rest_lt_of_split {bytes block rest : Bytes} (h : split bytes = .ok (block, rest)) :
    rest.length < bytes.length := by
  obtain ⟨rfl, hlen⟩ := split_eq_ok h
  simp only [recordHeaderSize] at hlen
  simp only [List.length_append]
  omega

/-- Split `bytes` into records and read each with `one`, in order, up to the end or the
    first error. -/
def readAll (one : Bytes → Except RecordError Record) (bytes : Bytes) :
    Except RecordError (List Record) :=
  if bytes.isEmpty then .ok []
  else match h : split bytes with
    | .error e => .error e
    | .ok (block, rest) =>
      have : rest.length < bytes.length := length_rest_lt_of_split h
      match one block with
      | .error e => .error e
      | .ok r =>
        match readAll one rest with
        | .error e => .error e
        | .ok rs => .ok (r :: rs)
termination_by bytes.length

end Record

/-- The body-header section: the header, if there is one, and its extension. -/
def BodyHeader.read (version : FormatVersion) : Reading (Option BodyHeader × Bytes) := do
  if version.hasHeaderWord then
    let word ← Reading.u32 "body_header_size"
    if word = 0 ∨ word = 4 then
      return (none, [])
    else if wireSize ≤ word.toNat then
      let timestamp ← Reading.u64 "body_header_timestamp"
      let sourceId ← Reading.u32 "body_header_source_id"
      let barrierType ← Reading.u32 "body_header_barrier"
      let extension ← Reading.bytes "body_header_extension" (word.toNat - wireSize)
      return (some ⟨timestamp, sourceId, barrierType⟩, extension)
    else throw (.badBodyHeader word)
  else return (none, [])

/-- A title field: the bytes up to the first zero byte, at most the greatest length. -/
def StateChange.readTitle : Reading Bytes := do
  let raw ← Reading.bytes "title" titleField
  return (raw.takeWhile (· ≠ 0)).take maxTitle

/-- The payload of a run transition. -/
def StateChange.read (version : FormatVersion) (kind : RecordKind) : Reading StateChange := do
  let runNumber ← Reading.u32 "run_number"
  let timeOffset ← Reading.u32 "time_offset"
  let unixTime ← Reading.u32 "timestamp"
  let offsetDivisor ← Reading.u32If (version ≠ .v10) 1 "offset_divisor"
  let title ← readTitle
  let producerId ← Reading.u32If (version = .v12) 0 "original_source_id"
  return { kind, runNumber, timeOffset, unixTime, offsetDivisor, title, producerId }

/-- The payload of a scaler readout. -/
def Scaler.read (version : FormatVersion) : Reading Scaler := do
  let intervalStart ← Reading.u32 "interval_start"
  let intervalEnd ← Reading.u32 "interval_end"
  let unixTime ← Reading.u32 "timestamp"
  let intervalDivisor ← Reading.u32If (version ≠ .v10) 1 "interval_divisor"
  let count ← Reading.u32 "scaler_count"
  let incremental ← Reading.u32If (version ≠ .v10) 1 "is_incremental"
  let producerId ← Reading.u32If (version = .v12) 0 "original_source_id"
  let values ← Reading.bytes "scalers" (4 * count.toNat)
  return { intervalStart, intervalEnd, unixTime, intervalDivisor,
           isIncremental := incremental ≠ 0, values := Bytes.words values, producerId }

/-- The payload of a text record. -/
def TextList.read (version : FormatVersion) (kind : RecordKind) : Reading TextList := do
  let timeOffset ← Reading.u32 "time_offset"
  let unixTime ← Reading.u32 "timestamp"
  let count ← Reading.u32 "string_count"
  let offsetDivisor ← Reading.u32If (version ≠ .v10) 1 "offset_divisor"
  let producerId ← Reading.u32If (version = .v12) 0 "original_source_id"
  let strings ← Reading.strings "strings" count.toNat
  return { kind, timeOffset, unixTime, offsetDivisor, strings, producerId }

/-- The payload of an event count. -/
def EventCount.read (version : FormatVersion) : Reading EventCount := do
  let timeOffset ← Reading.u32 "time_offset"
  let offsetDivisor ← Reading.u32If (version ≠ .v10) 1 "offset_divisor"
  let unixTime ← Reading.u32 "timestamp"
  let eventCount ← Reading.u64 "event_count"
  let producerId ← Reading.u32If (version = .v12) 0 "original_source_id"
  return { timeOffset, offsetDivisor, unixTime, eventCount, producerId }

/-- The header that the first generation writes into the payload of a fragment. The payload
    size in it has to be that of the bytes that follow. -/
def Fragment.readHeader : Reading BodyHeader := do
  let timestamp ← Reading.u64 "fragment_timestamp"
  let sourceId ← Reading.u32 "fragment_source_id"
  let payloadSize ← Reading.u32 "fragment_payload_size"
  let barrierType ← Reading.u32 "fragment_barrier"
  let available ← Reading.remaining
  if payloadSize.toNat = available then return ⟨timestamp, sourceId, barrierType⟩
  else throw (.truncated payloadSize.toNat available)

/-- The payload of glom parameters. -/
def GlomParameters.read : Reading GlomParameters := do
  let coincidenceTicks ← Reading.u64 "coincidence_ticks"
  let isBuilding ← Reading.u16 "is_building"
  let policy ← Reading.u16 "timestamp_policy"
  return { coincidenceTicks, isBuilding := isBuilding ≠ 0,
           timestampPolicy := TimestampPolicy.ofCode policy }

/-- The payload of a data-format record. -/
def DataFormat.read : Reading DataFormat := do
  let major ← Reading.u16 "major"
  let minor ← Reading.u16 "minor"
  return { major, minor }

namespace Record

/-- The children of a composite record, each read with `child`; without `child` there may
    be none. -/
def readChildren (child : Option (Bytes → Except RecordError Record)) : Reading (List Record) :=
  fun left =>
    match child with
    | some one => (readAll one left).map fun children => (children, [])
    | none => if left.isEmpty then .ok ([], []) else .error (.nestingTooDeep maxDepth)

/-- The payload of a record of a given kind, and the body header that comes with it. -/
def readBody (version : FormatVersion) (header : Option BodyHeader)
    (child : Option (Bytes → Except RecordError Record)) (kind : RecordKind) :
    Reading (Option BodyHeader × Body Record) := do
  match kind with
  | .beginRun | .endRun | .pauseRun | .resumeRun =>
    return (header, .stateChange (← StateChange.read version kind))
  | .scaler => return (header, .scaler (← Scaler.read version))
  | .packetTypes | .monitoredVariables => return (header, .text (← TextList.read version kind))
  | .physicsEvent => return (header, .physicsEvent (← Reading.rest))
  | .physicsEventCount => return (header, .physicsEventCount (← EventCount.read version))
  | .fragment | .unknownPayloadFragment =>
    let header ← if version = .v10 then some <$> Fragment.readHeader else pure header
    let payload ← Reading.rest
    return (header, .fragment ⟨payload, kind = .unknownPayloadFragment⟩)
  | .composite base => return (header, .composite base (← readChildren child))
  | .glomParameters => return (header, .glomParameters (← GlomParameters.read))
  | .dataFormat => return (header, .dataFormat (← DataFormat.read))
  | .abnormalEnd => return (header, .abnormalEnd)
  | .unknown typeTag => return (header, .unknown typeTag (← Reading.rest))

/-- A record from everything after its size word, without the check of its size. -/
def readFields (version : FormatVersion) (child : Option (Bytes → Except RecordError Record)) :
    Reading Record := do
  let typeTag ← Reading.u32 "type"
  let (header, extension) ← BodyHeader.read version
  let (header, body) ← readBody version header child (RecordKind.ofTag version typeTag)
  let r := assemble version header body
  return { r with extension := if r.header.isSome then extension else [] }

/-- Read the record that `wire` is, following composite records `depth` levels down. The
    fields have to account for every byte. -/
def decodeWire (version : FormatVersion) (depth : Nat) (wire : Bytes) : Except RecordError Record :=
  let child : Option (Bytes → Except RecordError Record) :=
    match depth with
    | 0 => none
    | depth + 1 => some (decodeWire version depth)
  match (readFields version child).run (wire.drop 4) with
  | .error e => .error e
  | .ok (r, _) =>
    if r.fieldSize = wire.length then .ok { r with wire := some wire }
    else .error (.trailingBytes wire.length r.fieldSize)

/-- Read the record at the front of `bytes`, and how many bytes it took. -/
def decodePrefix (version : FormatVersion) (bytes : Bytes) : Except RecordError (Record × Nat) :=
  match split bytes with
  | .error e => .error e
  | .ok (wire, _) =>
    match decodeWire version maxDepth wire with
    | .error e => .error e
    | .ok r => .ok (r, wire.length)

/-- Read the record at the front of `bytes`. -/
def decode (version : FormatVersion) (bytes : Bytes) : Except RecordError Record :=
  (decodePrefix version bytes).map Prod.fst

/-- Read all of `bytes` as records. -/
def decodeAll (version : FormatVersion) (bytes : Bytes) : Except RecordError (List Record) :=
  readAll (decodeWire version maxDepth) bytes

end Record

end DaqStream
