import DaqStream.Proofs.Record.Rebuild

/-!
# Canonical blocks

Reading forgets four things: the word of a body-header section without a header, what stands
after a title in its field, and which non-zero word a flag of a scaler readout or of glom
parameters was. A block that has in these places what writing puts there, and whose header
has no extension, is `Canonical`. Building the record again and writing it gives the block
back exactly then (`rebuild_of_decodePrefix`).
-/

namespace DaqStream

open LittleEndian Reading WireGrammar

theorem LittleEndian.u16_inj {x y : UInt16} : u16 x = u16 y ↔ x = y := by
  constructor
  · intro h
    have hval := congrArg toNat h
    rw [toNat_u16, toNat_u16] at hval
    exact UInt16.toNat_inj.1 hval
  · exact congrArg u16

theorem LittleEndian.u32_inj {x y : UInt32} : u32 x = u32 y ↔ x = y := by
  constructor
  · intro h
    have hval := congrArg toNat h
    rw [toNat_u32, toNat_u32] at hval
    exact UInt32.toNat_inj.1 hval
  · exact congrArg u32

/-- Two layouts with the same bytes before and after a field differ in the field only. -/
theorem append_field_inj {front field field' back : Bytes} :
    front ++ field ++ back = front ++ field' ++ back ↔ field = field' := by
  rw [List.append_left_inj, List.append_right_inj]

/-- A flag that was read from a word is written as that word when the word was one of the two
    that are written. -/
theorem flag_eq_iff {α : Type} [DecidableEq α] {off on word : α} {flag : Bool}
    (h : flag = decide (word ≠ off)) :
    (if flag then on else off) = word ↔ word = off ∨ word = on := by
  by_cases hoff : word = off
  · simp [h, hoff]
  · simp [h, hoff, eq_comm]

namespace StateChange

/-- The title field in the payload of a run transition. -/
def titleFieldIn (version : FormatVersion) (payload : Bytes) : Bytes :=
  (payload.drop (perVersion version 12 16 16)).take 81

theorem titleFieldIn_layout {version : FormatVersion} {s : StateChange} {field : Bytes}
    (h : field.length = titleField) : titleFieldIn version (s.layout version field) = field := by
  have hlength : field.length = 81 := h
  unfold titleFieldIn layout
  rw [List.append_assoc, List.drop_left', List.take_left' hlength]
  cases version <;> simp [length_sinceV11, perVersion]

/-- The field that is written for a title is the one it was read from when nothing but zero
    bytes stood after the title. -/
theorem titleBytes_titleOf_eq_iff {field : Bytes} (h : field.length = titleField) :
    titleBytes (titleOf field) = field ↔ ∀ b ∈ field.drop (titleOf field).length, b = 0 := by
  have hprefix : titleOf field <+: field :=
    (List.take_prefix _ _).trans (List.takeWhile_prefix _)
  have hkept : (titleOf field).take maxTitle = titleOf field := by
    rw [titleOf, List.take_take, Nat.min_self]
  obtain ⟨after, hfield⟩ := hprefix
  generalize titleOf field = title at hkept hfield ⊢
  subst hfield
  have hlen : after.length = titleField - title.length := by
    rw [List.length_append] at h
    omega
  rw [titleBytes, hkept, List.drop_left, List.append_right_inj, eq_comm, List.eq_replicate_iff]
  exact and_iff_right hlen

end StateChange

namespace Scaler

theorem wordAt_layout {version : FormatVersion} (hversion : version ≠ .v10) (s : Scaler)
    (flag : UInt32) : wordAt 20 (s.layout version flag) = flag.toNat := by
  have hdrop := wordAt_drop 0 20 (s.layout version flag)
  rw [← hdrop]
  have hfront : (u32 s.intervalStart ++ u32 s.intervalEnd ++ u32 s.unixTime ++
      sinceV11 version (u32 s.intervalDivisor) ++
      u32 (UInt32.ofNat s.values.length)).length = 20 := by
    simp [length_sinceV11, hversion]
  unfold layout
  rw [List.append_assoc, List.append_assoc, List.drop_left' hfront, sinceV11, if_neg hversion,
    wordAt_zero_u32_append]

/-- The payload is written as it was read when the flag was zero or one. The first generation
    has no flag. -/
theorem payload_eq_layout_iff {version : FormatVersion} {s : Scaler} {flag : UInt32}
    (h : s.isIncremental = decide (flag ≠ 0)) :
    s.payload version = s.layout version flag ↔
      (version ≠ .v10 → wordAt 20 (s.layout version flag) = 0 ∨
        wordAt 20 (s.layout version flag) = 1) := by
  have hpayload : s.payload version = s.layout version flag ↔
      sinceV11 version (u32 (if s.isIncremental then 1 else 0)) = sinceV11 version (u32 flag) := by
    rw [payload_eq_layout]
    unfold layout
    rw [List.append_left_inj, append_field_inj]
  rw [hpayload]
  by_cases hversion : version = .v10
  · simp [sinceV11, hversion]
  · rw [wordAt_layout hversion, sinceV11, sinceV11, if_neg hversion, if_neg hversion, u32_inj,
      flag_eq_iff h, ← UInt32.toNat_inj, ← UInt32.toNat_inj]
    exact ⟨fun hflag _ => hflag, fun hflag => hflag hversion⟩

end Scaler

namespace GlomParameters

/-- The word of glom parameters that says whether fragments are joined. -/
def flagIn (payload : Bytes) : Nat := toNat ((payload.drop 8).take 2)

theorem flagIn_layout (g : GlomParameters) (flag : UInt16) :
    flagIn (g.layout flag) = flag.toNat := by
  unfold flagIn layout
  rw [List.append_assoc, List.drop_left' (length_u64 _), List.take_left' (length_u16 _), toNat_u16]

/-- The payload is written as it was read when the flag was zero or one. -/
theorem payload_eq_layout_iff {g : GlomParameters} {flag : UInt16}
    (h : g.isBuilding = decide (flag ≠ 0)) :
    g.payload = g.layout flag ↔ flagIn (g.layout flag) = 0 ∨ flagIn (g.layout flag) = 1 := by
  have hpayload : g.payload = g.layout flag ↔
      u16 (if g.isBuilding then 1 else 0) = u16 flag := by
    rw [GlomParameters.payload_eq_layout]
    exact append_field_inj
  rw [hpayload, flagIn_layout, u16_inj, flag_eq_iff h, ← UInt16.toNat_inj, ← UInt16.toNat_inj]
  exact Iff.rfl

end GlomParameters

namespace BodyHeader

/-- The section of a record without extension is written as it was read, unless it was an
    empty one with the word that the other generation writes. -/
theorem sectionBytes_eq_iff {version : FormatVersion} {front : Bytes}
    {header header' : Option BodyHeader} (hsection : Section version front header [])
    (hheader : version ≠ .v10 → header' = header) :
    sectionBytes version header' [] = front ↔
      (version = .v11 → header' = none → wordAt 0 front = 0) ∧
        (version = .v12 → header' = none → wordAt 0 front = 4) := by
  cases hsection with
  | missing hword =>
    have hversion : version = .v10 := by
      cases version with
      | v10 => rfl
      | v11 | v12 => cases hword
    subst hversion
    simp [sectionBytes, hword]
  | empty word hword _ =>
    have hfront : wordAt 0 (u32 word) = word.toNat := by
      rw [← List.append_nil (u32 word), wordAt_zero_u32_append]
    rw [hheader (FormatVersion.ne_v10_of_hasHeaderWord hword), hfront, sectionBytes, if_pos hword,
      u32_inj, eq_comm, ← UInt32.toNat_inj]
    cases version with
    | v10 => cases hword
    | v11 | v12 => simp [FormatVersion.emptyHeaderWord]
  | full h _ hword _ =>
    simp [hheader (FormatVersion.ne_v10_of_hasHeaderWord hword), sectionBytes, hword]

end BodyHeader

/-- Records that keep the bytes they were read from are written as these bytes. -/
theorem Record.encodeAll_of_wires {blocks : List Bytes} {rs : List Record}
    (h : List.Forall₂ (fun block r => r.wire = some block) blocks rs) :
    encodeAll rs = blocks.flatten := by
  induction h with
  | nil => rfl
  | cons hfirst _ ih => rw [encodeAll, List.flatten_cons, encode_of_wire hfirst, ih]

namespace Body

/-- A payload has what is written for its body in the places that reading forgets. -/
def CanonicalIn (version : FormatVersion) (payload : Bytes) : Body Record → Prop
  | .stateChange change =>
    ∀ b ∈ (StateChange.titleFieldIn version payload).drop change.title.length, b = 0
  | .scaler _ => version ≠ .v10 → wordAt 20 payload = 0 ∨ wordAt 20 payload = 1
  | .glomParameters _ => GlomParameters.flagIn payload = 0 ∨ GlomParameters.flagIn payload = 1
  | _ => True

/-- A payload that was read is written as it was read exactly when it was canonical. -/
theorem payload_eq_iff {version : FormatVersion} {header header' : Option BodyHeader} {depth : Nat}
    {kind : RecordKind} {body : Body Record} {payload : Bytes}
    (h : Record.BodyRead version header (Record.childReader version depth) kind payload header' body
      []) :
    body.payload version header' = payload ↔ body.CanonicalIn version payload := by
  cases h with
  | @stateChange _ _ _ change _ hread =>
    obtain ⟨field, rfl, hfield, -, htitle, -⟩ := StateChange.read_eq_ok.1 hread
    rw [List.append_nil, Body.payload, StateChange.payload_eq_layout]
    have hiff : change.layout version (StateChange.titleBytes change.title) =
        change.layout version field ↔ ∀ b ∈ field.drop change.title.length, b = 0 := by
      unfold StateChange.layout
      rw [append_field_inj, htitle]
      exact StateChange.titleBytes_titleOf_eq_iff hfield
    rw [hiff, Body.CanonicalIn, StateChange.titleFieldIn_layout hfield]
  | scaler hread =>
    obtain ⟨flag, rfl, -, hflag, -⟩ := Scaler.read_eq_ok.1 hread
    rw [List.append_nil]
    exact Scaler.payload_eq_layout_iff hflag
  | glomParameters hread =>
    obtain ⟨flag, rfl, hflag, -⟩ := GlomParameters.read_eq_ok.1 hread
    rw [List.append_nil]
    exact GlomParameters.payload_eq_layout_iff hflag
  | text _ hread =>
    obtain ⟨hleft, -⟩ := TextList.read_eq_ok.1 hread
    rw [List.append_nil] at hleft
    exact iff_of_true hleft.symm trivial
  | physicsEventCount hread =>
    obtain ⟨hleft, -⟩ := EventCount.read_eq_ok.1 hread
    rw [List.append_nil] at hleft
    exact iff_of_true hleft.symm trivial
  | firstFragment inner unknownPayload hversion hread =>
    obtain ⟨hleft, -⟩ := Fragment.readHeader_eq_ok.1 hread
    rw [hversion]
    exact iff_of_true hleft.symm trivial
  | fragment payload unknownPayload hversion =>
    refine iff_of_true ?_ trivial
    rw [Body.payload, Fragment.payloadBytes, if_neg hversion]
  | composite base hread =>
    obtain ⟨-, blocks, rfl, hall⟩ := Record.readChildren_childReader.1 hread
    have hwires := hall.imp fun block child hchild => by
      obtain ⟨-, below, -, hdecode⟩ := hchild
      exact Record.wire_of_decodeWire hdecode
    exact iff_of_true (Record.encodeAll_of_wires hwires) trivial
  | dataFormat hread =>
    have hleft := DataFormat.read_eq_ok.1 hread
    rw [List.append_nil] at hleft
    exact iff_of_true hleft.symm trivial
  | physicsEvent => exact iff_of_true rfl trivial
  | abnormalEnd => exact iff_of_true rfl trivial
  | unknown => exact iff_of_true rfl trivial

end Body

namespace Record

/-- A block has what is written for its record in all the places that reading forgets. -/
structure Canonical (r : Record) (block : Bytes) : Prop where
  extension : r.extension = []
  /-- The word of a section without a header, behind the eight bytes of size and type. -/
  wordInV11 : r.version = .v11 → r.header = none → wordAt 8 block = 0
  wordInV12 : r.version = .v12 → r.header = none → wordAt 8 block = 4
  body : r.body.CanonicalIn r.version (r.payloadIn block)

section Block

variable {depth : Nat} {r : Record} {wire front payload : Bytes} {header : Option BodyHeader}

theorem encode_rebuilt (r : Record) :
    r.rebuilt.encode = u32 (UInt32.ofNat r.rebuilt.size) ++ u32 r.typeTag ++
      (BodyHeader.sectionBytes r.version r.header [] ++ r.body.payload r.version r.header) := by
  rw [rebuilt, encode, List.append_assoc]
  rfl

/-- Without an extension the parts of the block and of what is written lie side by side. -/
theorem LiesIn.encode_rebuilt_eq_iff (h : LiesIn depth r wire header front payload) :
    r.rebuilt.encode = wire ↔ r.extension = [] ∧
      BodyHeader.sectionBytes r.version r.header [] = front ∧
        r.body.payload r.version r.header = payload := by
  have hsize := h.size_rebuilt
  have hwritten := encode_rebuilt r
  have hwire := h.wire_eq
  rw [List.append_assoc] at hwire
  constructor
  · intro heq
    have hlength := length_encode r.rebuilt
    rw [heq] at hlength
    have hextension : r.extension = [] := by
      apply List.eq_nil_of_length_eq_zero
      omega
    have hfront : (BodyHeader.sectionBytes r.version r.header []).length = front.length := by
      rw [BodyHeader.length_sectionBytes, h.length_front, hextension]
    rw [hlength] at hwire
    rw [heq] at hwritten
    have hparts := List.append_cancel_left (hwritten.symm.trans hwire)
    exact ⟨hextension, List.append_inj hparts hfront⟩
  · intro hparts
    obtain ⟨hextension, hfront, hpayload⟩ := hparts
    rw [hextension, List.length_nil, Nat.add_zero] at hsize
    rw [hwritten, hfront, hpayload, hsize, ← hwire]

theorem LiesIn.wordAt_front (h : LiesIn depth r wire header front payload)
    (hword : r.version.hasHeaderWord = true) : wordAt 8 wire = wordAt 0 front := by
  have hlength : 4 ≤ front.length := by
    rw [h.length_front]
    unfold BodyHeader.sectionSize
    rw [if_pos hword]
    cases r.header with
    | none => exact Nat.le_refl 4
    | some => exact Nat.le_trans (by decide) (Nat.le_add_right _ _)
  have happend := @wordAt_zero_append front payload hlength
  rw [← happend, ← h.drop_eq, wordAt_drop, Nat.add_zero, recordHeaderSize]

/-- The block comes back exactly when it was canonical. -/
theorem LiesIn.encode_rebuilt_eq_iff_canonical
    (h : LiesIn depth r wire header front payload) :
    r.rebuilt.encode = wire ↔ r.Canonical wire := by
  have hbody := Body.payload_eq_iff h.bodyRead
  have hpayload := h.payloadIn_eq
  rw [h.encode_rebuilt_eq_iff]
  have hword11 (hversion : r.version = .v11) : wordAt 8 wire = wordAt 0 front :=
    h.wordAt_front (hversion ▸ rfl)
  have hword12 (hversion : r.version = .v12) : wordAt 8 wire = wordAt 0 front :=
    h.wordAt_front (hversion ▸ rfl)
  have hsection := h.sect
  constructor
  · intro hparts
    obtain ⟨hextension, hfront, hwritten⟩ := hparts
    rw [hextension] at hsection
    obtain ⟨hv11, hv12⟩ := (BodyHeader.sectionBytes_eq_iff hsection h.header_eq).1 hfront
    refine ⟨hextension, ?_, ?_, ?_⟩
    · intro hversion hnone
      rw [hword11 hversion]
      exact hv11 hversion hnone
    · intro hversion hnone
      rw [hword12 hversion]
      exact hv12 hversion hnone
    · rw [hpayload]
      exact hbody.1 hwritten
  · intro hcanonical
    rw [hcanonical.extension] at hsection
    refine ⟨hcanonical.extension, ?_, ?_⟩
    · apply (BodyHeader.sectionBytes_eq_iff hsection h.header_eq).2
      constructor
      · intro hversion hnone
        rw [← hword11 hversion]
        exact hcanonical.wordInV11 hversion hnone
      · intro hversion hnone
        rw [← hword12 hversion]
        exact hcanonical.wordInV12 hversion hnone
    · have hpayloadIn := hcanonical.body
      rw [hpayload] at hpayloadIn
      exact hbody.2 hpayloadIn

end Block

/-- A record at the front of a string can be built again. Its header extension is left behind;
    else it is read as the record that it was, and is written as the bytes that it was read
    from exactly when they were canonical. What is built once more is written as it was. -/
theorem rebuild_of_decodePrefix {version : FormatVersion} {bytes : Bytes} {r : Record} {used : Nat}
    (h : decodePrefix version bytes = .ok (r, used)) :
    ∃ q, rebuild version r = .ok q ∧ q.size + r.extension.length = used ∧
      ∃ back, decode version q.encode = .ok back ∧
        back = { r with extension := [], wire := some q.encode } ∧
        (q.encode = bytes.take used ↔ r.Canonical (bytes.take used)) ∧
        ∃ q', rebuild version back = .ok q' ∧ q'.encode = q.encode := by
  obtain ⟨block, rest, ⟨rfl, hblock⟩, hread, rfl⟩ := decodePrefix_eq_ok.1 h
  obtain ⟨header, front, payload, hlies⟩ := liesIn_of_decodeWire hblock hread
  obtain rfl := version_of_decodeWire hread
  rw [List.take_left]
  refine ⟨r.rebuilt, hlies.rebuild_eq, hlies.size_rebuilt, _, decode_encode_rebuilt hblock hread,
    rfl, hlies.encode_rebuilt_eq_iff_canonical, r.rebuilt, ?_, rfl⟩
  -- The header and the body are what they were, and nothing else is looked at.
  exact hlies.rebuild_eq

/-- A scaler readout without values whose header has an extension of two bytes, and whose flag is
    seven. -/
def extendedBlock : Bytes :=
  [54, 0, 0, 0, 20, 0, 0, 0] ++ ([22, 0, 0, 0, 5, 0, 0, 0, 0, 0, 0, 0, 1, 0, 0, 0, 0, 0, 0, 0] ++
    [170, 187]) ++ ([0, 0, 0, 0, 10, 0, 0, 0, 9, 0, 0, 0, 1, 0, 0, 0, 0, 0, 0, 0] ++ [7, 0, 0, 0])

/-- What is read from it. -/
def extendedReadout : Record :=
  ⟨.v11, some ⟨5, 1, 0⟩, [170, 187], .scaler ⟨0, 10, 9, 1, true, [], 0⟩, some extendedBlock⟩

/-- The block of a mark with this word in place of a header. -/
def emptyWordBlock (word : UInt8) : Bytes := [12, 0, 0, 0, 5, 0, 0, 0, word, 0, 0, 0]

/-- What the third generation reads from it. -/
def emptyWordMark (word : UInt8) : Record :=
  ⟨.v12, none, [], .abnormalEnd, some (emptyWordBlock word)⟩

theorem rebuild_of_decodePrefix_oddBlocks :
    (decodePrefix .v11 extendedBlock = .ok (extendedReadout, 54) ∧
      ∃ q, rebuild .v11 extendedReadout = .ok q ∧ q.size + 2 = 54 ∧ q.encode ≠ extendedBlock) ∧
    (decodePrefix .v12 (emptyWordBlock 0) = .ok (emptyWordMark 0, 12) ∧
      ∃ q, rebuild .v12 (emptyWordMark 0) = .ok q ∧ q.encode ≠ emptyWordBlock 0) ∧
    decodePrefix .v12 (emptyWordBlock 4) = .ok (emptyWordMark 4, 12) ∧
      ∃ q, rebuild .v12 (emptyWordMark 4) = .ok q ∧ q.encode = emptyWordBlock 4 := by
  refine ⟨?extended, ?zero, ?four⟩
  case extended =>
    have hread : decodePrefix .v11 extendedBlock = .ok (extendedReadout, 54) := rfl
    obtain ⟨q, hbuild, hsize, _, -, -, hcanonical, -⟩ := rebuild_of_decodePrefix hread
    refine ⟨hread, q, hbuild, hsize, ?_⟩
    intro hsame
    have hextension := (hcanonical.1 hsame).extension
    cases hextension
  case zero =>
    have hread : decodePrefix .v12 (emptyWordBlock 0) = .ok (emptyWordMark 0, 12) := rfl
    obtain ⟨q, hbuild, -, _, -, -, hcanonical, -⟩ := rebuild_of_decodePrefix hread
    refine ⟨hread, q, hbuild, ?_⟩
    intro hsame
    have hword := (hcanonical.1 hsame).wordInV12 rfl rfl
    cases hword
  case four =>
    have hread : decodePrefix .v12 (emptyWordBlock 4) = .ok (emptyWordMark 4, 12) := rfl
    obtain ⟨q, hbuild, -, _, -, -, hcanonical, -⟩ := rebuild_of_decodePrefix hread
    refine ⟨hread, q, hbuild, hcanonical.2 ⟨rfl, ?_, fun _ _ => rfl, trivial⟩⟩
    intro hversion
    cases hversion

end Record

end DaqStream
