import DaqStream.Bytes.LittleEndian
import DaqStream.Record.Error

/-!
# Records

A record has a generation, an optional body header with extension bytes, and a body. A
record that was read keeps the bytes it was read from, so that it can be written out
again unchanged; those bytes are no part of its content.
-/

namespace DaqStream

/-- Timestamp of a record that has none. -/
def nullTimestamp : UInt64 := 0xFFFFFFFFFFFFFFFF

/-- Event-builder data in front of a body. -/
structure BodyHeader where
  timestamp : UInt64
  sourceId : UInt32
  barrierType : UInt32
  deriving DecidableEq, Repr

namespace BodyHeader

/-- Bytes of a body header without extension, its size word included. -/
def wireSize : Nat := 20

end BodyHeader

/-- Begin, end, pause or resume of a run. -/
structure StateChange where
  kind : RecordKind
  runNumber : UInt32
  timeOffset : UInt32 := 0
  unixTime : UInt32 := 0
  offsetDivisor : UInt32 := 1
  /-- Bytes of the title; no text encoding is promised. -/
  title : Bytes := []
  /-- The source that first sent the record, before any event builder. -/
  producerId : UInt32 := 0
  deriving DecidableEq, Repr

namespace StateChange

/-- Most bytes of a title that are written. -/
def maxTitle : Nat := 80

/-- Bytes of the title field, which ends with a zero byte. -/
def titleField : Nat := 81

/-- Seconds into the run; a divisor of zero counts as one. -/
def elapsedSeconds (s : StateChange) : Float :=
  let divisor : UInt32 := if s.offsetDivisor = 0 then 1 else s.offsetDivisor
  Float.ofNat s.timeOffset.toNat / Float.ofNat divisor.toNat

end StateChange

/-- Counter values over one interval. -/
structure Scaler where
  intervalStart : UInt32
  intervalEnd : UInt32
  unixTime : UInt32
  intervalDivisor : UInt32
  isIncremental : Bool
  values : List UInt32
  /-- The source that first sent the record, before any event builder. -/
  producerId : UInt32
  deriving DecidableEq, Repr

/-- Documentation of packet types, or values of monitored variables. -/
structure TextList where
  kind : RecordKind
  timeOffset : UInt32
  unixTime : UInt32
  offsetDivisor : UInt32
  /-- The strings without the zero bytes that end them. -/
  strings : List Bytes
  /-- The source that first sent the record, before any event builder. -/
  producerId : UInt32
  deriving DecidableEq, Repr

/-- Number of physics events so far. -/
structure EventCount where
  timeOffset : UInt32
  offsetDivisor : UInt32
  unixTime : UInt32
  eventCount : UInt64
  /-- The source that first sent the record, before any event builder. -/
  producerId : UInt32
  deriving DecidableEq, Repr

/-- One producer's part of an event. -/
structure Fragment where
  payload : Bytes
  /-- Whether the payload is known to be no record. -/
  unknownPayload : Bool
  deriving DecidableEq, Repr

/-- How an event builder dates the events it builds. -/
inductive TimestampPolicy where
  | first
  | last
  | average
  | other (code : UInt16)
  deriving DecidableEq, Repr

namespace TimestampPolicy

/-- The code of a policy. -/
def code : TimestampPolicy → UInt16
  | first => 0
  | last => 1
  | average => 2
  | other code => code

/-- The policy of a code. -/
def ofCode (code : UInt16) : TimestampPolicy :=
  if code = 0 then first
  else if code = 1 then last
  else if code = 2 then average
  else other code

end TimestampPolicy

/-- How an event builder joined its fragments. -/
structure GlomParameters where
  coincidenceTicks : UInt64
  isBuilding : Bool
  timestampPolicy : TimestampPolicy
  deriving DecidableEq, Repr

/-- The format version of the records that follow. -/
structure DataFormat where
  major : UInt16
  minor : UInt16
  deriving DecidableEq, Repr

/-- The body of a record whose children, if it has any, are of type `ρ`. -/
inductive Body (ρ : Type) where
  | stateChange (change : StateChange)
  | scaler (readout : Scaler)
  | text (list : TextList)
  | physicsEvent (payload : Bytes)
  | physicsEventCount (count : EventCount)
  | fragment (part : Fragment)
  | composite (base : UInt32) (children : List ρ)
  | glomParameters (parameters : GlomParameters)
  | dataFormat (format : DataFormat)
  | abnormalEnd
  | unknown (typeTag : UInt32) (payload : Bytes)
  deriving Repr

namespace Body

/-- The kind of a body. -/
def kind {ρ : Type} : Body ρ → RecordKind
  | stateChange change => change.kind
  | scaler _ => .scaler
  | text list => list.kind
  | physicsEvent _ => .physicsEvent
  | physicsEventCount _ => .physicsEventCount
  | fragment part => if part.unknownPayload then .unknownPayloadFragment else .fragment
  | composite base _ => .composite base
  | glomParameters _ => .glomParameters
  | dataFormat _ => .dataFormat
  | abnormalEnd => .abnormalEnd
  | unknown typeTag _ => .unknown typeTag

/-- Whether a body is a fragment. -/
def isFragment {ρ : Type} : Body ρ → Bool
  | fragment _ => true
  | _ => false

end Body

/-- A record. -/
structure Record where
  version : FormatVersion
  header : Option BodyHeader
  /-- Body-header bytes past the standard ones. -/
  extension : Bytes
  body : Body Record
  /-- The bytes the record was read from, if it was read. -/
  wire : Option Bytes

namespace Record

/-- The kind of a record. -/
def kind (r : Record) : RecordKind := r.body.kind

/-- The type tag of a record. -/
def typeTag (r : Record) : UInt32 := r.kind.typeTag

/-- The run number of a run transition. -/
def runNumber? (r : Record) : Option UInt32 :=
  match r.body with
  | .stateChange change => some change.runNumber
  | _ => none

/-- The records that a composite record is made of; nothing for any other record. -/
def children (r : Record) : List Record :=
  match r.body with
  | .composite _ children => children
  | _ => []

/-- A record in memory, without checks. The first generation has no body headers, except
    those that fragments carry in their payload. -/
def assemble (version : FormatVersion) (header : Option BodyHeader) (body : Body Record) : Record where
  version := version
  header := if version = .v10 && !body.isFragment then none else header
  extension := []
  body := body
  wire := none

/-- A record in memory, if the body can be of its kind and the generation has the kind. -/
def build (version : FormatVersion) (header : Option BodyHeader) (body : Body Record) :
    Except RecordError Record :=
  match body with
  | .stateChange change =>
    if change.kind.isStateChange then supported else .error (.kindMismatch change.kind)
  | .text list => if list.kind.isText then supported else .error (.kindMismatch list.kind)
  | .composite _ children =>
    match children.find? (fun child => child.version ≠ version) with
    | some child => .error (.mixedVersions version child.version)
    | none => supported
  | _ => supported
where
  /-- Refuses a kind that the generation does not have. -/
  supported : Except RecordError Record :=
    if RecordKind.ofTag version body.kind.typeTag = body.kind then
      .ok (assemble version header body)
    else .error (.unsupported body.kind version)

/-- A run transition without times and title. -/
def stateChange (version : FormatVersion) (kind : RecordKind) (runNumber : UInt32) :
    Except RecordError Record :=
  build version none (.stateChange { kind, runNumber })

/-- A physics event. -/
def physicsEvent (version : FormatVersion) (header : Option BodyHeader) (payload : Bytes) : Record :=
  assemble version header (.physicsEvent payload)

/-- A record made of records. -/
def composite (version : FormatVersion) (base : UInt32) (header : Option BodyHeader)
    (children : List Record) : Except RecordError Record :=
  build version header (.composite base children)

/-- A mark that something failed before the records got here. -/
def abnormalEnd (version : FormatVersion) : Except RecordError Record :=
  build version none .abnormalEnd

/-- A record in memory with the header and body of another; the bytes that one was read
    from and its header extension are left behind. -/
def rebuild (version : FormatVersion) (r : Record) : Except RecordError Record :=
  build version r.header r.body

end Record

end DaqStream
