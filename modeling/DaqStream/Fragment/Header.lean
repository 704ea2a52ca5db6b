import DaqStream.Record.Encode
import DaqStream.Record.Decode

/-!
# Flat fragments

A flat fragment is a fixed header followed by a written record. A record can be flattened,
and wrapped into a fragment record that says the same.
-/

namespace DaqStream

/-- The header in front of a flat fragment. -/
structure FragmentHeader where
  timestamp : UInt64
  sourceId : UInt32
  /-- Bytes that follow the header. -/
  payloadSize : UInt32
  /-- Type tag of a run transition, else zero. -/
  barrierType : UInt32
  deriving DecidableEq, Repr

namespace FragmentHeader

/-- Bytes of a header. -/
def wireSize : Nat := 20

/-- The header for a record. Timestamp and source id are those of its body header; a record
    without one has no timestamp and the given source id. -/
def ofRecord (r : Record) (defaultSourceId : UInt32) : FragmentHeader where
  timestamp := (r.header.map BodyHeader.timestamp).getD nullTimestamp
  sourceId := (r.header.map BodyHeader.sourceId).getD defaultSourceId
  payloadSize := UInt32.ofNat r.size
  barrierType := r.kind.barrierType

/-- The bytes of a header. -/
def encode (h : FragmentHeader) : Bytes :=
  LittleEndian.u64 h.timestamp ++ LittleEndian.u32 h.sourceId ++ LittleEndian.u32 h.payloadSize ++
    LittleEndian.u32 h.barrierType

/-- The header at the front of `bytes`. -/
def decode (bytes : Bytes) : Except RecordError FragmentHeader :=
  match Bytes.cut wireSize bytes with
  | some (front, _) =>
    .ok { timestamp := UInt64.ofNat (LittleEndian.toNat (front.take 8))
          sourceId := UInt32.ofNat (LittleEndian.toNat ((front.drop 8).take 4))
          payloadSize := UInt32.ofNat (LittleEndian.toNat ((front.drop 12).take 4))
          barrierType := UInt32.ofNat (LittleEndian.toNat (front.drop 16)) }
  | none => .error (.truncated wireSize bytes.length)

end FragmentHeader

namespace Record

/-- A record as a flat fragment: the header and the written record. -/
def flatten (r : Record) (defaultSourceId : UInt32) : FragmentHeader × Bytes :=
  (FragmentHeader.ofRecord r defaultSourceId, r.encode)

/-- A fragment record of the same generation that carries `r`; its body header says what the
    header of the flat fragment would. -/
def wrap (r : Record) (defaultSourceId : UInt32) : Record :=
  let h := FragmentHeader.ofRecord r defaultSourceId
  assemble r.version (some ⟨h.timestamp, h.sourceId, h.barrierType⟩)
    (.fragment ⟨r.encode, false⟩)

end Record

namespace Fragment

/-- The record that a fragment carries. -/
def unwrap (f : Fragment) (version : FormatVersion) : Except RecordError Record :=
  Record.decode version f.payload

end Fragment

end DaqStream
