import DaqStream.Record.Basic

/-!
# Writing records

A record is written as its size, its type tag, the body-header section of its generation
and its payload. A record that was read is written as the bytes it was read from. Sizes
are computed without writing: `size` is the number of bytes that `encode` gives.
-/

namespace DaqStream

open LittleEndian

/-- Bytes of the size and type words in front of every record. -/
def recordHeaderSize : Nat := 8

namespace BodyHeader

/-- Bytes of the body-header section of a record. -/
def sectionSize (version : FormatVersion) (header : Option BodyHeader) (extension : Bytes) : Nat :=
  if version.hasHeaderWord then
    match header with
    | some _ => wireSize + extension.length
    | none => 4
  else 0

/-- The body-header section of a record. -/
def sectionBytes (version : FormatVersion) (header : Option BodyHeader) (extension : Bytes) : Bytes :=
  if version.hasHeaderWord then
    match header with
    | some h =>
      u32 (UInt32.ofNat (wireSize + extension.length)) ++ u64 h.timestamp ++ u32 h.sourceId ++
        u32 h.barrierType ++ extension
    | none => u32 version.emptyHeaderWord
  else []

end BodyHeader

/-- Bytes that every generation but the first has. -/
def sinceV11 (version : FormatVersion) (bytes : Bytes) : Bytes :=
  if version = .v10 then [] else bytes

/-- Bytes that only the last generation has. -/
def onlyV12 (version : FormatVersion) (bytes : Bytes) : Bytes :=
  if version = .v12 then bytes else []

namespace StateChange

/-- A title field: the title, cut to its greatest length, filled up with zero bytes. -/
def titleBytes (title : Bytes) : Bytes :=
  let kept := title.take maxTitle
  kept ++ List.replicate (titleField - kept.length) 0

/-- The payload of a run transition. -/
def payload (version : FormatVersion) (s : StateChange) : Bytes :=
  u32 s.runNumber ++ u32 s.timeOffset ++ u32 s.unixTime ++ sinceV11 version (u32 s.offsetDivisor) ++
    titleBytes s.title ++ onlyV12 version (u32 s.producerId)

end StateChange

namespace Scaler

/-- The payload of a scaler readout. -/
def payload (version : FormatVersion) (s : Scaler) : Bytes :=
  u32 s.intervalStart ++ u32 s.intervalEnd ++ u32 s.unixTime ++
    sinceV11 version (u32 s.intervalDivisor) ++ u32 (UInt32.ofNat s.values.length) ++
    sinceV11 version (u32 (if s.isIncremental then 1 else 0)) ++
    onlyV12 version (u32 s.producerId) ++ s.values.flatMap u32

end Scaler

namespace TextList

/-- Bytes of strings, each with the zero byte that ends it. -/
def stringsSize : List Bytes → Nat
  | [] => 0
  | s :: strings => s.length + 1 + stringsSize strings

/-- The payload of a text record. -/
def payload (version : FormatVersion) (t : TextList) : Bytes :=
  u32 t.timeOffset ++ u32 t.unixTime ++ u32 (UInt32.ofNat t.strings.length) ++
    sinceV11 version (u32 t.offsetDivisor) ++ onlyV12 version (u32 t.producerId) ++
    t.strings.flatMap fun s => s ++ [0]

end TextList

namespace EventCount

/-- The payload of an event count. -/
def payload (version : FormatVersion) (c : EventCount) : Bytes :=
  u32 c.timeOffset ++ sinceV11 version (u32 c.offsetDivisor) ++ u32 c.unixTime ++
    u64 c.eventCount ++ onlyV12 version (u32 c.producerId)

end EventCount

namespace Fragment

/-- The header that the first generation writes for a fragment without one. -/
def missingHeader : BodyHeader := ⟨nullTimestamp, 0, 0⟩

/-- The payload of a fragment. The first generation has no body headers and writes the
    header here. -/
def payloadBytes (version : FormatVersion) (header : Option BodyHeader) (f : Fragment) : Bytes :=
  if version = .v10 then
    let h := header.getD missingHeader
    u64 h.timestamp ++ u32 h.sourceId ++ u32 (UInt32.ofNat f.payload.length) ++
      u32 h.barrierType ++ f.payload
  else f.payload

end Fragment

namespace GlomParameters

/-- The payload of glom parameters. -/
def payload (g : GlomParameters) : Bytes :=
  u64 g.coincidenceTicks ++ u16 (if g.isBuilding then 1 else 0) ++ u16 g.timestampPolicy.code

end GlomParameters

namespace DataFormat

/-- The payload of a data-format record. -/
def payload (f : DataFormat) : Bytes := u16 f.major ++ u16 f.minor

end DataFormat

mutual
/-- Bytes that a record takes when it is written. -/
def Record.size : Record → Nat
  | ⟨version, header, extension, body, wire⟩ =>
    match wire with
    | some bytes => bytes.length
    | none =>
      recordHeaderSize + BodyHeader.sectionSize version header extension + body.payloadSize version

/-- Bytes of a payload. -/
def Body.payloadSize (version : FormatVersion) : Body Record → Nat
  | .stateChange _ => match version with | .v10 => 93 | .v11 => 97 | .v12 => 101
  | .scaler readout =>
    (match version with | .v10 => 16 | .v11 => 24 | .v12 => 28) + 4 * readout.values.length
  | .text list =>
    (match version with | .v10 => 12 | .v11 => 16 | .v12 => 20) +
      TextList.stringsSize list.strings
  | .physicsEvent payload => payload.length
  | .physicsEventCount _ => match version with | .v10 => 16 | .v11 => 20 | .v12 => 24
  | .fragment part => (if version = .v10 then 20 else 0) + part.payload.length
  | .composite _ children => Record.sizes children
  | .glomParameters _ => 12
  | .dataFormat _ => 4
  | .abnormalEnd => 0
  | .unknown _ payload => payload.length

/-- Bytes of several records together. -/
def Record.sizes : List Record → Nat
  | [] => 0
  | r :: rs => r.size + Record.sizes rs
end

namespace Record

/-- Bytes that the fields of a record take, whatever bytes it was read from. -/
def fieldSize (r : Record) : Nat :=
  recordHeaderSize + BodyHeader.sectionSize r.version r.header r.extension +
    r.body.payloadSize r.version

end Record

mutual
/-- The bytes of a record. -/
def Record.encode : Record → Bytes
  | ⟨version, header, extension, body, wire⟩ =>
    match wire with
    | some bytes => bytes
    | none =>
      u32 (UInt32.ofNat (Record.size ⟨version, header, extension, body, none⟩)) ++
        u32 body.kind.typeTag ++ BodyHeader.sectionBytes version header extension ++
        body.payload version header

/-- The payload of a body. -/
def Body.payload (version : FormatVersion) (header : Option BodyHeader) : Body Record → Bytes
  | .stateChange change => change.payload version
  | .scaler readout => readout.payload version
  | .text list => list.payload version
  | .physicsEvent payload => payload
  | .physicsEventCount count => count.payload version
  | .fragment part => part.payloadBytes version header
  | .composite _ children => Record.encodeAll children
  | .glomParameters parameters => parameters.payload
  | .dataFormat format => format.payload
  | .abnormalEnd => []
  | .unknown _ payload => payload

/-- The bytes of several records, one after the other. -/
def Record.encodeAll : List Record → Bytes
  | [] => []
  | r :: rs => r.encode ++ Record.encodeAll rs
end

namespace Record

/-- The bytes of a record after those that are already in `buffer`. -/
def encodeInto (r : Record) (buffer : Bytes) : Bytes := buffer ++ r.encode

theorem encodeAll_eq_flatMap (rs : List Record) : encodeAll rs = rs.flatMap encode := by
  induction rs with
  | nil => simp [encodeAll]
  | cons r rs ih => simp [encodeAll, ih]

end Record

end DaqStream
