import DaqStream.Record.Kind

/-!
# Why a record cannot be read or built
-/

namespace DaqStream

/-- The causes that stop the reading or building of a record. -/
inductive RecordError where
  /-- The declared size cannot hold the size and type words. -/
  | tooSmall (declared : UInt32)
  /-- Fewer bytes are there than were declared. -/
  | truncated (declared available : Nat)
  /-- The declared size is above what a reader is ready to hold. -/
  | tooLarge (declared limit : Nat)
  /-- A field runs past the end of its record. -/
  | fieldOverrun (field : String)
  /-- The fields end before the declared size does. -/
  | trailingBytes (declared decoded : Nat)
  /-- Composite records lie too deep in each other. -/
  | nestingTooDeep (limit : Nat)
  /-- A body-header size word that no generation writes. -/
  | badBodyHeader (word : UInt32)
  /-- A kind that the generation does not have. -/
  | unsupported (kind : RecordKind) (version : FormatVersion)
  /-- A payload that cannot be of this kind. -/
  | kindMismatch (kind : RecordKind)
  /-- A child of another generation than its parent. -/
  | mixedVersions (parent child : FormatVersion)
  deriving DecidableEq, Repr

namespace RecordError

/-- What is said about an error. -/
def message : RecordError → String
  | tooSmall declared =>
    s!"Declared record size {declared.toNat} is smaller than the 8-byte header"
  | truncated declared available =>
    s!"Record declares {declared} bytes but only {available} are available"
  | tooLarge declared limit =>
    s!"Record declares {declared} bytes, above the {limit}-byte limit"
  | fieldOverrun field => s!"Field '{field}' runs past the end of the record"
  | trailingBytes declared decoded =>
    s!"Record declares {declared} bytes but its payload ends after {decoded}"
  | nestingTooDeep limit => s!"Composite records nested more than {limit} levels deep"
  | badBodyHeader word => s!"Invalid body header size {word.toNat}"
  | unsupported kind version =>
    s!"{kind.name} records are not supported by format {version.name}"
  | kindMismatch kind => s!"Payload cannot carry a {kind.name} record"
  | mixedVersions parent child =>
    s!"Composite child uses format {child.name}, parent uses {parent.name}"

end RecordError

end DaqStream
