import DaqStream.Text.Decimal

/-!
# Wire generations and record kinds

A stream is written in one of three generations that do not mix. Every record
carries a 32-bit type tag; which kind a tag stands for depends on the generation.
Tags without a meaning are kept, so that their records can be passed on untouched.
-/

namespace DaqStream

/-- The wire generation of a stream. -/
inductive FormatVersion where
  /-- No body headers. -/
  | v10
  /-- Optional body headers, divisors beside time offsets. -/
  | v11
  /-- A body-header word in every record, ids of producers, composite records. -/
  | v12
  deriving DecidableEq, Repr, Inhabited

namespace FormatVersion

/-- Major version number, as a data-format record announces it. -/
def major : FormatVersion → UInt16
  | v10 => 10
  | v11 => 11
  | v12 => 12

/-- The name of a generation. -/
def name : FormatVersion → String
  | v10 => "v10"
  | v11 => "v11"
  | v12 => "v12"

/-- Whether records carry a body-header size word after the type tag. -/
def hasHeaderWord : FormatVersion → Bool
  | v10 => false
  | _ => true

/-- The body-header size word of a record without a body header. -/
def emptyHeaderWord : FormatVersion → UInt32
  | v12 => 4
  | _ => 0

/-- The generation with exactly this name. -/
def ofName? : String → Option FormatVersion
  | "v10" => some v10
  | "v11" => some v11
  | "v12" => some v12
  | _ => none

/-- Read a generation as a user writes it: the number, after any run of the letter v
    in either case. -/
def parse? (text : String) : Option FormatVersion :=
  match String.ofList ((text.toList.map Char.toLower).dropWhile (· == 'v')) with
  | "10" => some v10
  | "11" => some v11
  | "12" => some v12
  | _ => none

/-- What is said about a text that names no generation. -/
def parseFailure (text : String) : String :=
  "Invalid format version '" ++ text ++ "'. Must be one of: v10, v11, v12"

end FormatVersion

/-- The kind of a record. -/
inductive RecordKind where
  | beginRun
  | endRun
  | pauseRun
  | resumeRun
  /-- Something failed before the records got here. -/
  | abnormalEnd
  | packetTypes
  | monitoredVariables
  | dataFormat
  | scaler
  | physicsEvent
  | physicsEventCount
  | fragment
  /-- A fragment whose payload is no record. -/
  | unknownPayloadFragment
  | glomParameters
  /-- A record made of records; `base` is the tag it stands for. -/
  | composite (base : UInt32)
  /-- A tag without a meaning in its generation. -/
  | unknown (typeTag : UInt32)
  deriving DecidableEq, Repr, Inhabited

namespace RecordKind

/-- The bit that marks the type tag of a composite record. -/
def compositeFlag : UInt32 := 0x8000

/-- The kind that a type tag stands for in a generation. -/
def ofTag (version : FormatVersion) (typeTag : UInt32) : RecordKind :=
  if version = .v12 ∧ typeTag &&& compositeFlag ≠ 0 then
    .composite (typeTag &&& ~~~compositeFlag)
  else if typeTag = 1 then .beginRun
  else if typeTag = 2 then .endRun
  else if typeTag = 3 then .pauseRun
  else if typeTag = 4 then .resumeRun
  else if typeTag = 5 ∧ version ≠ .v10 then .abnormalEnd
  else if typeTag = 10 then .packetTypes
  else if typeTag = 11 then .monitoredVariables
  else if typeTag = 12 ∧ version ≠ .v10 then .dataFormat
  else if typeTag = 20 then .scaler
  else if typeTag = 30 then .physicsEvent
  else if typeTag = 31 then .physicsEventCount
  else if typeTag = 40 then .fragment
  else if typeTag = 41 then .unknownPayloadFragment
  else if typeTag = 42 ∧ version ≠ .v10 then .glomParameters
  else .unknown typeTag

/-- The type tag of a kind. -/
def typeTag : RecordKind → UInt32
  | beginRun => 1
  | endRun => 2
  | pauseRun => 3
  | resumeRun => 4
  | abnormalEnd => 5
  | packetTypes => 10
  | monitoredVariables => 11
  | dataFormat => 12
  | scaler => 20
  | physicsEvent => 30
  | physicsEventCount => 31
  | fragment => 40
  | unknownPayloadFragment => 41
  | glomParameters => 42
  | composite base => base ||| compositeFlag
  | unknown typeTag => typeTag

/-- Whether a kind is one of the four run transitions. -/
def isStateChange : RecordKind → Bool
  | beginRun | endRun | pauseRun | resumeRun => true
  | _ => false

/-- Whether a kind is one of the two kinds of text record. -/
def isText : RecordKind → Bool
  | packetTypes | monitoredVariables => true
  | _ => false

/-- The barrier type of a fragment that carries a record of this kind: the type tag of a
    run transition, zero for anything else. -/
def barrierType (kind : RecordKind) : UInt32 :=
  if kind.isStateChange then kind.typeTag else 0

/-- The groups of kinds that a filter may treat differently. -/
inductive Family where
  | stateChange
  | scaler
  | text
  | physicsEvent
  | physicsEventCount
  | fragment
  | composite
  | glomParameters
  | dataFormat
  | abnormalEnd
  | unknown
  deriving DecidableEq, Repr

/-- The name of a group. -/
def Family.name : Family → String
  | stateChange => "state_change"
  | scaler => "scaler"
  | text => "text"
  | physicsEvent => "physics_event"
  | physicsEventCount => "physics_event_count"
  | fragment => "fragment"
  | composite => "composite"
  | glomParameters => "glom_parameters"
  | dataFormat => "data_format"
  | abnormalEnd => "abnormal_end"
  | unknown => "unknown"

/-- The group that a kind belongs to. -/
def family : RecordKind → Family
  | beginRun | endRun | pauseRun | resumeRun => .stateChange
  | scaler => .scaler
  | packetTypes | monitoredVariables => .text
  | physicsEvent => .physicsEvent
  | physicsEventCount => .physicsEventCount
  | fragment | unknownPayloadFragment => .fragment
  | composite _ => .composite
  | glomParameters => .glomParameters
  | dataFormat => .dataFormat
  | abnormalEnd => .abnormalEnd
  | unknown _ => .unknown

/-- The kinds that have a name of their own. -/
def named : List (String × RecordKind) :=
  [("BEGIN_RUN", beginRun), ("END_RUN", endRun), ("PAUSE_RUN", pauseRun),
   ("RESUME_RUN", resumeRun), ("ABNORMAL_ENDRUN", abnormalEnd), ("PACKET_TYPES", packetTypes),
   ("MONITORED_VARIABLES", monitoredVariables), ("RING_FORMAT", dataFormat),
   ("PERIODIC_SCALERS", scaler), ("PHYSICS_EVENT", physicsEvent),
   ("PHYSICS_EVENT_COUNT", physicsEventCount), ("EVB_FRAGMENT", fragment),
   ("EVB_UNKNOWN_PAYLOAD", unknownPayloadFragment), ("EVB_GLOM_INFO", glomParameters)]

/-- The name of a kind; composite and unknown kinds show their number. -/
def name : RecordKind → String
  | beginRun => "BEGIN_RUN"
  | endRun => "END_RUN"
  | pauseRun => "PAUSE_RUN"
  | resumeRun => "RESUME_RUN"
  | abnormalEnd => "ABNORMAL_ENDRUN"
  | packetTypes => "PACKET_TYPES"
  | monitoredVariables => "MONITORED_VARIABLES"
  | dataFormat => "RING_FORMAT"
  | scaler => "PERIODIC_SCALERS"
  | physicsEvent => "PHYSICS_EVENT"
  | physicsEventCount => "PHYSICS_EVENT_COUNT"
  | fragment => "EVB_FRAGMENT"
  | unknownPayloadFragment => "EVB_UNKNOWN_PAYLOAD"
  | glomParameters => "EVB_GLOM_INFO"
  | composite base => "COMPOSITE(" ++ toString base.toNat ++ ")"
  | unknown typeTag => "UNKNOWN(" ++ toString typeTag.toNat ++ ")"

/-- Read a kind as a user writes it: a type tag in decimal, with its meaning in v11, or
    a name in either case. -/
def parse? (text : String) : Option RecordKind :=
  match Decimal.natBelow? UInt32.size text with
  | some n => some (ofTag .v11 (UInt32.ofNat n))
  | none => named.lookup (String.ofList (text.toList.map Char.toUpper))

/-- What is said about a text that names no kind. -/
def parseFailure (text : String) : String :=
  "Unknown record kind '" ++ text ++ "'"

/-- Position of a kind among the kinds; the numbered kinds come last, by number. -/
def rank : RecordKind → Nat × Nat
  | beginRun => (0, 0)
  | endRun => (1, 0)
  | pauseRun => (2, 0)
  | resumeRun => (3, 0)
  | abnormalEnd => (4, 0)
  | packetTypes => (5, 0)
  | monitoredVariables => (6, 0)
  | dataFormat => (7, 0)
  | scaler => (8, 0)
  | physicsEvent => (9, 0)
  | physicsEventCount => (10, 0)
  | fragment => (11, 0)
  | unknownPayloadFragment => (12, 0)
  | glomParameters => (13, 0)
  | composite base => (14, base.toNat)
  | unknown typeTag => (15, typeTag.toNat)

/-- Whether one kind comes before another, or is the same. -/
def le (a b : RecordKind) : Bool :=
  a.rank.1 < b.rank.1 || (a.rank.1 == b.rank.1 && a.rank.2 ≤ b.rank.2)

/-- Kinds in order, repetitions kept. -/
def sort (kinds : List RecordKind) : List RecordKind :=
  kinds.mergeSort le

end RecordKind

end DaqStream
