import DaqStream.Proofs.Record.Block
import DaqStream.Proofs.Record.Layout

/-!
# Reading one block

What the reader of a single record does: the ways to read a payload are gone through once
(`BodyRead`), and everything else is derived from them. The size of the fields that were read is
always the number of bytes that were taken (`length_of_readFields`), so the check says that
nothing is left over, and reading a block succeeds exactly when its fields do and leave nothing
(`decodeWire_eq_ok`).
-/

namespace DaqStream

open LittleEndian Reading

namespace Reading

variable {α β : Type}

theorem bind_apply {m : Reading α} {f : α → Reading β} {left mid : Bytes} {a : α}
    (h : m left = .ok (a, mid)) : (m >>= f) left = f a mid := by
  show (m left >>= fun p => f p.1 p.2) = _
  rw [h]
  rfl

end Reading

namespace Record

variable {version : FormatVersion} {header header' : Option BodyHeader}
  {child : Option (Bytes → Except RecordError Record)} {kind : RecordKind} {body : Body Record}
  {left rest : Bytes}

theorem readBody_of_isStateChange (h : kind.isStateChange = true) :
    readBody version header child kind =
      (do return (header, .stateChange (← StateChange.read version kind))) := by
  cases kind <;> first | rfl | simp [RecordKind.isStateChange] at h

theorem readBody_of_isText (h : kind.isText = true) :
    readBody version header child kind =
      (do return (header, .text (← TextList.read version kind))) := by
  cases kind <;> first | rfl | simp [RecordKind.isText] at h

theorem readBody_fragment (unknownPayload : Bool) :
    readBody version header child (if unknownPayload then .unknownPayloadFragment else .fragment) =
      (do
        let header ← if version = .v10 then some <$> Fragment.readHeader else pure header
        let payload ← Reading.rest
        return (header, .fragment ⟨payload, unknownPayload⟩)) := by
  cases unknownPayload <;> rfl

theorem readChildren_eq_ok {children : List Record} :
    readChildren child left = .ok (children, rest) ↔
      rest = [] ∧ match child with
        | some one => readAll one left = .ok children
        | none => left = [] ∧ children = [] := by
  unfold readChildren
  cases child with
  | none => cases left <;> simp [eq_comm, and_comm]
  | some one =>
    cases hall : readAll one left with
    | error e => simp [hall, Except.map]
    | ok rs => simp [hall, Except.map, eq_comm, and_comm]

theorem sizes_eq_length_flatten {one : Bytes → Except RecordError Record}
    (hsize : ∀ block r, one block = .ok r → r.size = block.length)
    {blocks : List Bytes} {rs : List Record}
    (h : List.Forall₂ (fun block r => IsBlock block ∧ one block = .ok r) blocks rs) :
    sizes rs = blocks.flatten.length := by
  induction h with
  | nil => rfl
  | cons hfirst _ ih =>
    rw [sizes, hsize _ _ hfirst.2, ih, List.flatten_cons, List.length_append]

/-- The ways to read a payload: which step is taken, and what is made of what it gives. -/
inductive BodyRead (version : FormatVersion) (header : Option BodyHeader)
    (child : Option (Bytes → Except RecordError Record)) :
    RecordKind → Bytes → Option BodyHeader → Body Record → Bytes → Prop
  | stateChange {kind : RecordKind} {left rest : Bytes} {change : StateChange} :
      kind.isStateChange = true → StateChange.read version kind left = .ok (change, rest) →
      BodyRead version header child kind left header (.stateChange change) rest
  | scaler {left rest : Bytes} {readout : Scaler} :
      Scaler.read version left = .ok (readout, rest) →
      BodyRead version header child .scaler left header (.scaler readout) rest
  | text {kind : RecordKind} {left rest : Bytes} {list : TextList} :
      kind.isText = true → TextList.read version kind left = .ok (list, rest) →
      BodyRead version header child kind left header (.text list) rest
  | physicsEvent (payload : Bytes) :
      BodyRead version header child .physicsEvent payload header (.physicsEvent payload) []
  | physicsEventCount {left rest : Bytes} {count : EventCount} :
      EventCount.read version left = .ok (count, rest) →
      BodyRead version header child .physicsEventCount left header (.physicsEventCount count) rest
  /-- The first generation has the header in the payload. -/
  | firstFragment {left : Bytes} {inner : BodyHeader} (payload : Bytes) (unknownPayload : Bool) :
      version = .v10 → Fragment.readHeader left = .ok (inner, payload) →
      BodyRead version header child
        (if unknownPayload then .unknownPayloadFragment else .fragment) left (some inner)
        (.fragment ⟨payload, unknownPayload⟩) []
  | fragment (payload : Bytes) (unknownPayload : Bool) :
      version ≠ .v10 →
      BodyRead version header child
        (if unknownPayload then .unknownPayloadFragment else .fragment) payload header
        (.fragment ⟨payload, unknownPayload⟩) []
  | composite (base : UInt32) {left rest : Bytes} {children : List Record} :
      readChildren child left = .ok (children, rest) →
      BodyRead version header child (.composite base) left header (.composite base children) rest
  | glomParameters {left rest : Bytes} {parameters : GlomParameters} :
      GlomParameters.read left = .ok (parameters, rest) →
      BodyRead version header child .glomParameters left header (.glomParameters parameters) rest
  | dataFormat {left rest : Bytes} {format : DataFormat} :
      DataFormat.read left = .ok (format, rest) →
      BodyRead version header child .dataFormat left header (.dataFormat format) rest
  | abnormalEnd (left : Bytes) :
      BodyRead version header child .abnormalEnd left header .abnormalEnd left
  | unknown (typeTag : UInt32) (payload : Bytes) :
      BodyRead version header child (.unknown typeTag) payload header (.unknown typeTag payload) []

/-- There are no other ways. -/
theorem bodyRead_of_readBody
    (h : readBody version header child kind left = .ok ((header', body), rest)) :
    BodyRead version header child kind left header' body rest := by
  have hfragment (unknownPayload : Bool)
      (h : readBody version header child
        (if unknownPayload then .unknownPayloadFragment else .fragment) left =
          .ok ((header', body), rest)) :
      BodyRead version header child
        (if unknownPayload then .unknownPayloadFragment else .fragment) left header' body rest := by
    rw [readBody_fragment] at h
    simp only [bind_map_left, pure_bind, ite_eq_ok, bind_eq_ok, pure_eq_ok, rest_eq_ok,
      Prod.mk.injEq] at h
    rcases h with ⟨hversion, inner, _, hinner, payload, _, ⟨rfl, rfl⟩, ⟨rfl, rfl⟩, rfl⟩ |
      ⟨hversion, payload, _, ⟨rfl, rfl⟩, ⟨rfl, rfl⟩, rfl⟩
    · exact .firstFragment payload unknownPayload hversion hinner
    · exact .fragment payload unknownPayload hversion
  cases kind
  case fragment => exact hfragment false h
  case unknownPayloadFragment => exact hfragment true h
  case abnormalEnd =>
    simp only [readBody, pure_eq_ok, Prod.mk.injEq] at h
    obtain ⟨⟨rfl, rfl⟩, rfl⟩ := h
    exact .abnormalEnd left
  all_goals
    simp only [readBody, bind_eq_ok, pure_eq_ok, Prod.mk.injEq] at h
    obtain ⟨read, _, hread, ⟨rfl, rfl⟩, rfl⟩ := h
  case beginRun | endRun | pauseRun | resumeRun => exact .stateChange rfl hread
  case packetTypes | monitoredVariables => exact .text rfl hread
  case scaler => exact .scaler hread
  case physicsEventCount => exact .physicsEventCount hread
  case composite => exact .composite _ hread
  case glomParameters => exact .glomParameters hread
  case dataFormat => exact .dataFormat hread
  case physicsEvent =>
    obtain ⟨rfl, rfl⟩ := rest_eq_ok.1 hread
    exact .physicsEvent read
  case unknown =>
    obtain ⟨rfl, rfl⟩ := rest_eq_ok.1 hread
    exact .unknown _ read

/-- The payload that was read takes as many bytes as it takes when it is written. -/
theorem length_of_readBody
    (hsize : ∀ one, child = some one → ∀ block r, one block = .ok r → r.size = block.length)
    (h : readBody version header child kind left = .ok ((header', body), rest)) :
    left.length = body.payloadSize version + rest.length := by
  cases bodyRead_of_readBody h with
  | stateChange _ hread =>
    obtain ⟨field, rfl, hfield, -⟩ := StateChange.read_eq_ok.1 hread
    rw [List.length_append, StateChange.length_layout _ _ _ hfield]
  | scaler hread =>
    obtain ⟨flag, rfl, -⟩ := Scaler.read_eq_ok.1 hread
    rw [List.length_append, Scaler.length_layout]
  | text _ hread =>
    obtain ⟨rfl, -⟩ := TextList.read_eq_ok.1 hread
    rw [List.length_append, TextList.length_payload]
  | physicsEvent => rfl
  | physicsEventCount hread =>
    obtain ⟨rfl, -⟩ := EventCount.read_eq_ok.1 hread
    rw [List.length_append, EventCount.length_payload]
  | firstFragment payload unknownPayload hversion hread =>
    obtain ⟨rfl, -⟩ := Fragment.readHeader_eq_ok.1 hread
    simp only [hversion, Fragment.payloadBytes, Body.payloadSize, List.length_append, length_u32,
      length_u64, if_true]
    rfl
  | fragment payload unknownPayload hversion => simp [hversion, Body.payloadSize]
  | composite base hread =>
    obtain ⟨rfl, hchildren⟩ := readChildren_eq_ok.1 hread
    cases child with
    | none =>
      obtain ⟨rfl, rfl⟩ := hchildren
      rfl
    | some one =>
      obtain ⟨blocks, rfl, hall⟩ := readAll_eq_ok.1 hchildren
      exact (sizes_eq_length_flatten (hsize one rfl) hall).symm
  | glomParameters hread =>
    obtain ⟨flag, rfl, -⟩ := GlomParameters.read_eq_ok.1 hread
    rw [List.length_append, GlomParameters.length_layout, Body.payloadSize]
  | dataFormat hread =>
    obtain rfl := DataFormat.read_eq_ok.1 hread
    rw [List.length_append, DataFormat.length_payload, Body.payloadSize]
  | abnormalEnd => simp [Body.payloadSize]
  | unknown => rfl

/-- Only the first generation reads a header out of a payload. -/
theorem header_of_readBody (hversion : version ≠ .v10)
    (h : readBody version header child kind left = .ok ((header', body), rest)) :
    header' = header := by
  cases bodyRead_of_readBody h with
  | firstFragment _ _ hfirst => exact absurd hfirst hversion
  | _ => rfl

/-- The record that a header, an extension and a body make when they were read. -/
def ofRead (version : FormatVersion) (header : Option BodyHeader) (extension : Bytes)
    (body : Body Record) : Record :=
  let r := assemble version header body
  { r with extension := if r.header.isSome then extension else [] }

theorem readFields_eq (version : FormatVersion)
    (child : Option (Bytes → Except RecordError Record)) :
    readFields version child = do
      let typeTag ← Reading.u32 "type"
      let (header, extension) ← BodyHeader.read version
      let (header, body) ← readBody version header child (RecordKind.ofTag version typeTag)
      return ofRead version header extension body := rfl

theorem readFields_eq_ok {r : Record} :
    readFields version child left = .ok (r, rest) ↔
      ∃ (typeTag : UInt32) (front payload extension : Bytes) (header header' : Option BodyHeader)
        (body : Body Record),
        left = u32 typeTag ++ (front ++ payload) ∧
        BodyHeader.Section version front header extension ∧
        readBody version header child (RecordKind.ofTag version typeTag) payload =
          .ok ((header', body), rest) ∧
        r = ofRead version header' extension body := by
  rw [readFields_eq]
  simp only [bind_eq_ok, u32_eq_ok, pure_eq_ok]
  constructor
  · rintro ⟨typeTag, _, rfl, ⟨header, extension⟩, payload, hheader, ⟨header', body⟩, _, hbody,
      rfl, rfl⟩
    obtain ⟨front, rfl, hsection⟩ := BodyHeader.read_eq_ok.1 hheader
    exact ⟨typeTag, front, payload, extension, header, header', body, rfl, hsection, hbody, rfl⟩
  · rintro ⟨typeTag, front, payload, extension, header, header', body, rfl, hsection, hbody, rfl⟩
    exact ⟨typeTag, _, rfl, (header, extension), payload,
      BodyHeader.read_eq_ok.2 ⟨front, rfl, hsection⟩, (header', body), rest, hbody, rfl, rfl⟩

theorem fieldSize_ofRead {front extension : Bytes}
    (hsection : BodyHeader.Section version front header extension)
    (hheader : version ≠ .v10 → header' = header) :
    (ofRead version header' extension body).fieldSize =
      recordHeaderSize + front.length + body.payloadSize version := by
  have hsize : BodyHeader.sectionSize version (ofRead version header' extension body).header
      (ofRead version header' extension body).extension = front.length := by
    rw [hsection.length_eq]
    cases version with
    | v10 => rfl
    | v11 | v12 =>
      obtain rfl := hheader (by decide)
      cases header' with
      | none => rfl
      | some h => rfl
  show recordHeaderSize +
      BodyHeader.sectionSize version (ofRead version header' extension body).header
        (ofRead version header' extension body).extension + body.payloadSize version = _
  rw [hsize]

/-- The size of the fields that were read is the number of bytes that were taken. -/
theorem length_of_readFields {r : Record}
    (hsize : ∀ one, child = some one → ∀ block r, one block = .ok r → r.size = block.length)
    (h : readFields version child left = .ok (r, rest)) :
    left.length + 4 = r.fieldSize + rest.length := by
  obtain ⟨typeTag, front, payload, extension, header, header', body, rfl, hsection, hbody, rfl⟩ :=
    readFields_eq_ok.1 h
  have hpayload := length_of_readBody hsize hbody
  have hfields : (ofRead version header' extension body).fieldSize =
      recordHeaderSize + front.length + body.payloadSize version :=
    fieldSize_ofRead hsection fun hversion => header_of_readBody hversion hbody
  rw [hfields]
  simp only [List.length_append, length_u32, recordHeaderSize]
  omega

/-- The reader of the children of a record that is read with `depth` levels to go. -/
def childReader (version : FormatVersion) : Nat → Option (Bytes → Except RecordError Record)
  | 0 => none
  | depth + 1 => some (decodeWire version depth)

theorem decodeWire_eq (version : FormatVersion) (depth : Nat) (wire : Bytes) :
    decodeWire version depth wire =
      match readFields version (childReader version depth) (wire.drop 4) with
      | .error e => .error e
      | .ok (r, _) =>
        if r.fieldSize = wire.length then .ok { r with wire := some wire }
        else .error (.trailingBytes wire.length r.fieldSize) := by
  cases depth <;> rfl

theorem wire_of_decodeWire {depth : Nat} {wire : Bytes} {r : Record}
    (h : decodeWire version depth wire = .ok r) : r.wire = some wire := by
  rw [decodeWire_eq] at h
  split at h
  · simp at h
  · split at h
    · cases h
      rfl
    · simp at h

theorem size_of_wire {r : Record} {wire : Bytes} (h : r.wire = some wire) :
    r.size = wire.length := by
  obtain ⟨_, _, _, _, _⟩ := r
  cases h
  rw [size]

theorem encode_of_wire {r : Record} {wire : Bytes} (h : r.wire = some wire) :
    r.encode = wire := by
  obtain ⟨_, _, _, _, _⟩ := r
  cases h
  rw [encode]

theorem size_of_childReader (depth : Nat) :
    ∀ one, childReader version depth = some one →
      ∀ block r, one block = .ok r → r.size = block.length := by
  intro one hone block r hr
  cases depth with
  | zero => cases hone
  | succ depth =>
    cases hone
    exact size_of_wire (wire_of_decodeWire hr)

/-- A block is read exactly when its fields are, and nothing is left over. -/
theorem decodeWire_eq_ok {depth : Nat} {wire : Bytes} {q : Record} :
    decodeWire version depth wire = .ok q ↔
      ∃ r, readFields version (childReader version depth) (wire.drop 4) = .ok (r, []) ∧
        q = { r with wire := some wire } := by
  rw [decodeWire_eq]
  cases hread : readFields version (childReader version depth) (wire.drop 4) with
  | error e => simp
  | ok p =>
    obtain ⟨r, rest⟩ := p
    have hlen := length_of_readFields (size_of_childReader depth) hread
    -- The fields begin with the type word, so the size word has not been cut short.
    have hpos : 4 ≤ (wire.drop 4).length := by
      obtain ⟨typeTag, _, _, _, _, _, _, hleft, -⟩ := readFields_eq_ok.1 hread
      rw [hleft, List.length_append, length_u32]
      omega
    have hiff : r.fieldSize = wire.length ↔ rest = [] := by
      rw [List.length_drop] at hlen hpos
      rw [← List.length_eq_zero_iff]
      omega
    dsimp only
    by_cases hrest : rest = []
    · rw [if_pos (hiff.2 hrest), hrest]
      constructor
      · intro h
        cases h
        exact ⟨r, rfl, rfl⟩
      · rintro ⟨_, h, rfl⟩
        cases h
        rfl
    · rw [if_neg fun h => hrest (hiff.1 h)]
      constructor
      · intro h
        cases h
      · rintro ⟨_, h, -⟩
        cases h
        exact absurd rfl hrest

theorem decodePrefix_eq_ok {bytes : Bytes} {r : Record} {used : Nat} :
    decodePrefix version bytes = .ok (r, used) ↔
      ∃ block rest, (bytes = block ++ rest ∧ IsBlock block) ∧
        decodeWire version maxDepth block = .ok r ∧ used = block.length := by
  simp only [← split_eq_ok_iff]
  unfold decodePrefix
  cases hsplit : split bytes with
  | error e => simp
  | ok p =>
    obtain ⟨block, rest⟩ := p
    cases hread : decodeWire version maxDepth block with
    | error e => simp [hread]
    | ok q => simp [hread, eq_comm]

theorem decode_eq_ok {bytes : Bytes} {r : Record} :
    decode version bytes = .ok r ↔ ∃ used, decodePrefix version bytes = .ok (r, used) := by
  unfold decode
  cases decodePrefix version bytes with
  | error e => simp [Except.map]
  | ok p =>
    obtain ⟨q, used⟩ := p
    simp [Except.map]

/-- A block is read as all of a string just as it is read in front of one. -/
theorem decode_block {block : Bytes} {r : Record} (h : IsBlock block) :
    decode version block = .ok r ↔ decodeWire version maxDepth block = .ok r := by
  simp only [decode_eq_ok, decodePrefix_eq_ok]
  constructor
  · rintro ⟨_, front, rest, hfront, hread, -⟩
    obtain ⟨-, -, rfl, -⟩ := append_isBlock_iff.1 hfront
    rwa [h.size, List.take_length] at hread
  · intro hread
    exact ⟨_, block, [], ⟨(List.append_nil _).symm, h⟩, hread, rfl⟩

end Record

end DaqStream
