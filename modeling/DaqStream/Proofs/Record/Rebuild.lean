import DaqStream.Proofs.Record.RoundTrip

/-!
# Building a record again that was read

What was read can be built: it has a kind that its generation has, and its body is its own
normal form. Building it again leaves the header extension behind, and nothing else
(`decode_encode_rebuilt`).
-/

namespace DaqStream

open LittleEndian Reading

theorem FormatVersion.ne_v10_of_hasHeaderWord {version : FormatVersion}
    (h : version.hasHeaderWord = true) : version ≠ .v10 := by
  rintro rfl
  cases h

theorem FormatVersion.Carries.divisor_eq {version : FormatVersion} {divisor producerId : UInt32}
    (h : version.Carries divisor producerId) : version.divisor divisor = divisor := by
  unfold FormatVersion.divisor
  split
  · rename_i hversion
    exact (h.divisor hversion).symm
  · rfl

theorem FormatVersion.Carries.producerId_eq {version : FormatVersion} {divisor producerId : UInt32}
    (h : version.Carries divisor producerId) : version.producerId producerId = producerId := by
  unfold FormatVersion.producerId
  split
  · rfl
  · rename_i hversion
    exact (h.producerId hversion).symm

/-! ## What was read is its own normal form -/

namespace StateChange

theorem norm_of_read {version : FormatVersion} {kind : RecordKind} {left rest : Bytes}
    {s : StateChange} (h : StateChange.read version kind left = .ok (s, rest)) :
    s.norm version = s := by
  obtain ⟨field, -, -, -, htitle, hcarries⟩ := read_eq_ok.1 h
  have hsame : (s.title.takeWhile (· ≠ 0)).take 80 = s.title := by
    have hnonzero : (titleOf field).takeWhile (· ≠ 0) = titleOf field := by
      rw [titleOf, List.take_takeWhile, List.takeWhile_idem]
    rw [htitle, hnonzero, titleOf, maxTitle, List.take_take, Nat.min_self]
  unfold norm
  rw [hcarries.divisor_eq, hcarries.producerId_eq, hsame]

end StateChange

theorem Scaler.norm_of_read {version : FormatVersion} {left rest : Bytes} {s : Scaler}
    (h : Scaler.read version left = .ok (s, rest)) : s.norm version = s := by
  obtain ⟨flag, -, -, hflag, hfirst, hcarries⟩ := read_eq_ok.1 h
  have hsame : (decide (version = .v10) || s.isIncremental) = s.isIncremental := by
    by_cases hversion : version = .v10
    · rw [hflag, hfirst hversion]
      simp
    · simp [hversion]
  unfold norm
  rw [hcarries.divisor_eq, hcarries.producerId_eq, hsame]

theorem TextList.norm_of_read {version : FormatVersion} {kind : RecordKind} {left rest : Bytes}
    {t : TextList} (h : TextList.read version kind left = .ok (t, rest)) :
    t.norm version = t := by
  obtain ⟨-, -, -, -, hcarries⟩ := read_eq_ok.1 h
  unfold norm
  rw [hcarries.divisor_eq, hcarries.producerId_eq]

theorem EventCount.norm_of_read {version : FormatVersion} {left rest : Bytes} {c : EventCount}
    (h : EventCount.read version left = .ok (c, rest)) : c.norm version = c := by
  obtain ⟨-, hcarries⟩ := read_eq_ok.1 h
  unfold norm
  rw [hcarries.divisor_eq, hcarries.producerId_eq]

theorem GlomParameters.norm_of_read {left rest : Bytes} {g : GlomParameters}
    (h : GlomParameters.read left = .ok (g, rest)) : g.norm = g := by
  obtain ⟨flag, -, -, hpolicy⟩ := read_eq_ok.1 h
  rw [TimestampPolicy.ofCode_code] at hpolicy
  unfold norm
  rw [hpolicy]

namespace Record

section Body

variable {version : FormatVersion} {header header' : Option BodyHeader} {depth : Nat}
  {kind : RecordKind} {body : Body Record} {left : Bytes}

theorem kind_of_bodyRead {child : Option (Bytes → Except RecordError Record)} {rest : Bytes}
    (h : BodyRead version header child kind left header' body rest) : body.kind = kind := by
  cases h with
  | stateChange _ hread =>
    obtain ⟨_, -, -, hkind, -⟩ := StateChange.read_eq_ok.1 hread
    exact hkind
  | text _ hread =>
    obtain ⟨-, hkind, -⟩ := TextList.read_eq_ok.1 hread
    exact hkind
  | _ => rfl

/-- The children that were read are of the generation of the record around them, and keep
    their bytes. -/
theorem children_of_bodyRead {rest : Bytes}
    (h : BodyRead version header (childReader version depth) kind left header' body rest) :
    ∀ base children, body = .composite base children → ∃ blocks : List Bytes,
      left = blocks.flatten ∧ List.Forall₂ (fun block child => IsBlock block ∧
        child.version = version ∧ child.wire = some block) blocks children := by
  intro base children hbody
  subst hbody
  cases h with
  | composite base hread =>
    obtain ⟨-, blocks, hleft, hall⟩ := readChildren_childReader.1 hread
    refine ⟨blocks, hleft, hall.imp ?_⟩
    intro block child hchild
    obtain ⟨hblock, below, -, hdecode⟩ := hchild
    exact ⟨hblock, version_of_decodeWire hdecode, wire_of_decodeWire hdecode⟩

theorem fits_of_bodyRead {rest : Bytes}
    (h : BodyRead version header (childReader version depth) kind left header' body rest) :
    body.Fits version := by
  cases h with
  | stateChange hkind hread =>
    obtain ⟨_, -, -, rfl, -⟩ := StateChange.read_eq_ok.1 hread
    exact hkind
  | text hkind hread =>
    obtain ⟨-, rfl, -⟩ := TextList.read_eq_ok.1 hread
    exact hkind
  | composite base hread =>
    obtain ⟨-, blocks, -, hall⟩ := readChildren_childReader.1 hread
    intro child hmem
    obtain ⟨block, -, below, -, hdecode⟩ := exists_of_forall₂_of_mem hall hmem
    exact version_of_decodeWire hdecode
  | _ => trivial

theorem norm_of_bodyRead {rest : Bytes}
    (h : BodyRead version header (childReader version depth) kind left header' body rest) :
    body.norm version = body := by
  cases h with
  | stateChange _ hread => rw [Body.norm, StateChange.norm_of_read hread]
  | scaler hread => rw [Body.norm, Scaler.norm_of_read hread]
  | text _ hread => rw [Body.norm, TextList.norm_of_read hread]
  | physicsEventCount hread => rw [Body.norm, EventCount.norm_of_read hread]
  | glomParameters hread => rw [Body.norm, GlomParameters.norm_of_read hread]
  | @composite base left rest children hread =>
    obtain ⟨-, blocks, -, hall⟩ := readChildren_childReader.1 hread
    have hsame : children.map norm = children.map id := by
      apply List.map_congr_left
      intro child hmem
      obtain ⟨block, -, below, -, hdecode⟩ := exists_of_forall₂_of_mem hall hmem
      exact norm_of_wire (wire_of_decodeWire hdecode)
    rw [Body.norm, norms_eq_map, hsame, List.map_id]
  | _ => rw [Body.norm]

/-- A fragment of the first generation has the header that was read out of its payload. -/
theorem normHeader_of_bodyRead {rest : Bytes} {child : Option (Bytes → Except RecordError Record)}
    (h : BodyRead version header child kind left header' body rest) :
    body.normHeader version header' = header' := by
  cases h with
  | firstFragment payload unknownPayload hversion hread =>
    rw [Body.normHeader, if_pos ⟨hversion, rfl⟩]
    rfl
  | fragment payload unknownPayload hversion => rw [Body.normHeader, if_neg fun h => hversion h.1]
  | _ =>
    rw [Body.normHeader, if_neg]
    intro h
    cases h.2

end Body

section Layout

variable {version : FormatVersion} {depth : Nat} {wire : Bytes} {r : Record}

/-- How a record that was read lies in its block. -/
structure LiesIn (depth : Nat) (r : Record) (wire : Bytes) (header : Option BodyHeader)
    (front payload : Bytes) : Prop where
  wire_eq : wire = u32 (UInt32.ofNat wire.length) ++ u32 r.typeTag ++ front ++ payload
  sect : BodyHeader.Section r.version front header r.extension
  length_front : front.length = BodyHeader.sectionSize r.version r.header r.extension
  length_payload : payload.length = r.body.payloadSize r.version
  bodyRead : BodyRead r.version header (childReader r.version depth) r.kind payload r.header r.body
    []
  header_eq : r.version ≠ .v10 → r.header = header
  header_none : r.version = .v10 → r.body.isFragment = false → r.header = none
  ofTag_typeTag : RecordKind.ofTag r.version r.typeTag = r.kind

/-- The first generation has no header but in the payload of a fragment. -/
theorem header_eq_none {header header' : Option BodyHeader}
    {child : Option (Bytes → Except RecordError Record)} {kind : RecordKind}
    {front payload rest extension : Bytes} {body : Body Record}
    (hsection : BodyHeader.Section version front header extension)
    (hbody : BodyRead version header child kind payload header' body rest)
    (hversion : version = .v10) (hfragment : body.isFragment = false) : header' = none := by
  have hnone : header = none := by
    subst hversion
    cases hsection with
    | missing => rfl
    | empty => rfl
    | full _ _ hword => cases hword
  cases hbody with
  | firstFragment => cases hfragment
  | _ => exact hnone

/-- Nothing that was read is left out of the record. -/
theorem ofRead_eq {header header' : Option BodyHeader}
    {child : Option (Bytes → Except RecordError Record)} {kind : RecordKind}
    {front payload rest extension : Bytes} {body : Body Record}
    (hsection : BodyHeader.Section version front header extension)
    (hbody : BodyRead version header child kind payload header' body rest) :
    ofRead version header' extension body = ⟨version, header', extension, body, none⟩ := by
  have hkept : (if (version = .v10 && !body.isFragment) = true then none else header') =
      header' := by
    split
    · rename_i hnone
      simp only [Bool.and_eq_true, decide_eq_true_eq, Bool.not_eq_true'] at hnone
      exact (header_eq_none hsection hbody hnone.1 hnone.2).symm
    · rfl
  have hextension : (if header'.isSome = true then extension else []) = extension := by
    split
    · rfl
    · rename_i hnone
      cases hsection with
      | missing => rfl
      | empty => rfl
      | full h _ hword =>
        have hversion := FormatVersion.ne_v10_of_hasHeaderWord hword
        cases hbody with
        | firstFragment _ _ hfirst => exact absurd hfirst hversion
        | _ => exact absurd rfl hnone
  unfold ofRead assemble
  dsimp only
  rw [hkept, hextension]

theorem liesIn_of_decodeWire (hblock : IsBlock wire) (h : decodeWire version depth wire = .ok r) :
    ∃ header front payload, LiesIn depth r wire header front payload := by
  obtain ⟨q, hread, rfl⟩ := decodeWire_eq_ok.1 h
  obtain ⟨typeTag, front, payload, extension, header, header', body, hleft, hsection, hbody, rfl⟩ :=
    readFields_eq_ok.1 hread
  have hheader : version ≠ .v10 → header' = header := by
    intro hversion
    exact header_of_readBody hversion hbody
  have hpayload : payload.length = body.payloadSize version :=
    length_of_readBody (size_of_childReader depth) hbody
  have hbody := bodyRead_of_readBody hbody
  have hkind : body.kind = RecordKind.ofTag version typeTag := kind_of_bodyRead hbody
  have htag : body.kind.typeTag = typeTag := by
    rw [hkind, RecordKind.typeTag_ofTag]
  rw [ofRead_eq hsection hbody]
  have hsize : wire.take 4 = u32 (UInt32.ofNat wire.length) := by
    have hlen : (wire.take 4).length = 4 := by
      have hroom := hblock.header
      rw [recordHeaderSize] at hroom
      rw [List.length_take]
      omega
    have hword := hblock.size
    rw [wordAt, List.drop_zero] at hword
    rw [← hword, u32_toNat hlen]
  refine ⟨header, front, payload, ?_, hsection, ?_, hpayload, ?_, hheader,
    header_eq_none hsection hbody, ?_⟩
  · show wire = _ ++ u32 body.kind.typeTag ++ front ++ payload
    rw [htag, List.append_assoc, List.append_assoc, ← hleft, ← hsize, List.take_append_drop]
  · rw [hsection.length_eq]
    by_cases hversion : version = .v10
    · rw [hversion]
      rfl
    · rw [hheader hversion]
  · show BodyRead version header _ body.kind payload header' body []
    rw [hkind]
    exact hbody
  · show RecordKind.ofTag version body.kind.typeTag = body.kind
    rw [htag, hkind]

variable {header : Option BodyHeader} {front payload : Bytes}

/-- Only a header has an extension. -/
theorem LiesIn.header_of_extension (h : LiesIn depth r wire header front payload)
    (hne : r.extension ≠ []) : r.header.isSome = true ∧ r.version ≠ .v10 := by
  have hsection := h.sect
  generalize r.extension = extension at hsection hne
  cases hsection with
  | missing => exact absurd rfl hne
  | empty => exact absurd rfl hne
  | full inner _ hword =>
    have hversion := FormatVersion.ne_v10_of_hasHeaderWord hword
    rw [h.header_eq hversion]
    exact ⟨rfl, hversion⟩

/-- The payload in the block of a record: what is behind the size and type words and the
    body-header section. -/
def payloadIn (r : Record) (block : Bytes) : Bytes :=
  match r.version, r.header with
  | .v10, _ => block.drop 8
  | .v11, none | .v12, none => block.drop (8 + 4)
  | .v11, some _ | .v12, some _ => block.drop (8 + (20 + r.extension.length))

theorem payloadIn_eq_drop (r : Record) (block : Bytes) :
    r.payloadIn block = (block.drop recordHeaderSize).drop
      (BodyHeader.sectionSize r.version r.header r.extension) := by
  obtain ⟨version, header, extension, body, wire⟩ := r
  rw [List.drop_drop]
  cases version with
  | v10 => rfl
  | v11 | v12 => cases header <;> rfl

theorem LiesIn.drop_eq (h : LiesIn depth r wire header front payload) :
    wire.drop recordHeaderSize = front ++ payload := by
  rw [h.wire_eq, List.append_assoc]
  exact List.drop_left' (by rw [List.length_append, length_u32, length_u32]; rfl)

theorem LiesIn.payloadIn_eq (h : LiesIn depth r wire header front payload) :
    r.payloadIn wire = payload := by
  rw [payloadIn_eq_drop, h.drop_eq]
  exact List.drop_left' h.length_front

/-- A record that was read, as it is when it is built again. -/
def rebuilt (r : Record) : Record := ⟨r.version, r.header, [], r.body, none⟩

/-- What was read can be built again. -/
theorem LiesIn.rebuild_eq (h : LiesIn depth r wire header front payload) :
    rebuild r.version r = .ok r.rebuilt := by
  refine build_eq_ok.2 ⟨fits_of_bodyRead h.bodyRead, h.ofTag_typeTag, ?_⟩
  unfold rebuilt assemble
  congr 1
  split
  · rename_i hnone
    simp only [Bool.and_eq_true, decide_eq_true_eq, Bool.not_eq_true'] at hnone
    exact h.header_none hnone.1 hnone.2
  · rfl

theorem sectionSize_add_length {extension : Bytes} {header' : Option BodyHeader}
    (hsection : BodyHeader.Section version front header extension)
    (hheader : version ≠ .v10 → header' = header) :
    BodyHeader.sectionSize version header' [] + extension.length =
      BodyHeader.sectionSize version header' extension := by
  cases hsection with
  | missing => rfl
  | empty => rfl
  | full h _ hword =>
    rw [hheader (FormatVersion.ne_v10_of_hasHeaderWord hword)]
    simp [BodyHeader.sectionSize, hword]

theorem LiesIn.length_wire (h : LiesIn depth r wire header front payload) :
    wire.length = recordHeaderSize + front.length + payload.length := by
  rw [h.wire_eq]
  simp only [List.length_append, length_u32, recordHeaderSize]

/-- Only the header extension is left behind. -/
theorem LiesIn.size_rebuilt (h : LiesIn depth r wire header front payload) :
    r.rebuilt.size + r.extension.length = wire.length := by
  have hsection := sectionSize_add_length h.sect h.header_eq
  rw [h.length_wire, h.length_front, h.length_payload, ← hsection, rebuilt, size]
  omega

theorem made_rebuilt (hblock : IsBlock wire) (h : decodeWire version maxDepth wire = .ok r) :
    Made r.rebuilt := by
  obtain ⟨header, front, payload, hlies⟩ := liesIn_of_decodeWire hblock h
  have hmade : Made r := .decoded ((decode_block hblock).2 h)
  exact .built hmade.of_body hlies.rebuild_eq

theorem texts_rebuilt (r : Record) : r.rebuilt.texts = r.texts := by
  obtain ⟨_, _, _, _, _⟩ := r
  rfl

theorem nesting_rebuilt (r : Record) : r.rebuilt.nesting = r.nesting := by
  obtain ⟨_, _, _, _, _⟩ := r
  rfl

theorem norm_rebuilt (h : LiesIn depth r wire header front payload) :
    r.rebuilt.norm = { r with extension := [], wire := some r.rebuilt.encode } := by
  rw [rebuilt, norm, norm_of_bodyRead h.bodyRead, normHeader_of_bodyRead h.bodyRead]

/-- What is built again from a record that was read is read as that record, without its header
    extension. -/
theorem decode_encode_rebuilt (hblock : IsBlock wire)
    (h : decodeWire version maxDepth wire = .ok r) :
    decode version r.rebuilt.encode =
      .ok { r with extension := [], wire := some r.rebuilt.encode } := by
  obtain ⟨header, front, payload, hlies⟩ := liesIn_of_decodeWire hblock h
  obtain rfl := version_of_decodeWire h
  have hsize : r.rebuilt.size < 2 ^ 32 := by
    have hlength := hlies.size_rebuilt
    have hlt := hblock.length_lt
    omega
  obtain ⟨hwritten, hread⟩ := (made_rebuilt hblock h).readsBack hsize
  obtain ⟨htexts, hnesting⟩ := texts_nesting_of_decodeWire h
  rw [← texts_rebuilt] at htexts
  rw [← nesting_rebuilt] at hnesting
  rw [decode_block hwritten, ← norm_rebuilt hlies]
  exact (hread maxDepth r.rebuilt.norm).2 ⟨htexts, hnesting, rfl⟩

end Layout

end Record

end DaqStream
