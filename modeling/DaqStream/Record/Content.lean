import DaqStream.Record.Basic

/-!
# Equality of content

Two records are equal when they have the same generation, body header, extension and
body, at every level. The bytes they were read from take no part in it: `same` compares
two records without them, and `content` is a record with all of them removed.
-/

namespace DaqStream

mutual
/-- A record without the bytes it was read from, at every level. -/
def Record.content : Record → Record
  | ⟨version, header, extension, body, _⟩ => ⟨version, header, extension, body.content, none⟩

/-- A body whose children are without the bytes they were read from. -/
def Body.content : Body Record → Body Record
  | .composite base children => .composite base (Record.contents children)
  | .stateChange change => .stateChange change
  | .scaler readout => .scaler readout
  | .text list => .text list
  | .physicsEvent payload => .physicsEvent payload
  | .physicsEventCount count => .physicsEventCount count
  | .fragment part => .fragment part
  | .glomParameters parameters => .glomParameters parameters
  | .dataFormat format => .dataFormat format
  | .abnormalEnd => .abnormalEnd
  | .unknown typeTag payload => .unknown typeTag payload

/-- The contents of several records. -/
def Record.contents : List Record → List Record
  | [] => []
  | r :: rs => r.content :: Record.contents rs
end

mutual
/-- Whether two records have the same content. -/
def Record.same : Record → Record → Bool
  | ⟨version, header, extension, body, _⟩, ⟨version', header', extension', body', _⟩ =>
    decide (version = version') && decide (header = header') &&
      decide (extension = extension') && body.same body'

/-- Whether two bodies have the same content. -/
def Body.same : Body Record → Body Record → Bool
  | .composite base children, .composite base' children' =>
    decide (base = base') && Record.allSame children children'
  | .stateChange a, .stateChange b => decide (a = b)
  | .scaler a, .scaler b => decide (a = b)
  | .text a, .text b => decide (a = b)
  | .physicsEvent a, .physicsEvent b => decide (a = b)
  | .physicsEventCount a, .physicsEventCount b => decide (a = b)
  | .fragment a, .fragment b => decide (a = b)
  | .glomParameters a, .glomParameters b => decide (a = b)
  | .dataFormat a, .dataFormat b => decide (a = b)
  | .abnormalEnd, .abnormalEnd => true
  | .unknown a p, .unknown b q => decide (a = b) && decide (p = q)
  | _, _ => false

/-- Whether two lists of records have the same contents, in order. -/
def Record.allSame : List Record → List Record → Bool
  | [], [] => true
  | r :: rs, s :: ss => r.same s && Record.allSame rs ss
  | _, _ => false
end

instance : BEq Record := ⟨Record.same⟩

end DaqStream
