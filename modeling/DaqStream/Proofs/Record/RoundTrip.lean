import DaqStream.Proofs.Record.Kind
import DaqStream.Proofs.Record.Replay
import DaqStream.Record.Content

/-!
# Writing and reading back

A record that the constructors made out of records that were made or read is written as a
block of its own size. `decode_encode` says when the block can be read, and that what is
read is the normal form of the record.
-/

namespace DaqStream

open LittleEndian Reading

theorem BodyHeader.length_sectionBytes (version : FormatVersion) (header : Option BodyHeader)
    (extension : Bytes) :
    (sectionBytes version header extension).length = sectionSize version header extension := by
  unfold sectionBytes sectionSize
  split
  · cases header with
    | none => rfl
    | some h =>
      simp only [List.length_append, length_u32, length_u64, wireSize]
  · rfl

theorem Fragment.length_payloadBytes (version : FormatVersion) (header : Option BodyHeader)
    (part : Fragment) :
    (part.payloadBytes version header).length = (Body.fragment part).payloadSize version := by
  by_cases h : version = .v10
  · simp only [payloadBytes, Body.payloadSize, h, if_true, List.length_append, length_u32,
      length_u64]
  · simp [payloadBytes, Body.payloadSize, h]

mutual
theorem Record.length_encode : ∀ r : Record, r.encode.length = r.size
  | ⟨_, _, _, _, some wire⟩ => by rw [Record.encode, Record.size]
  | ⟨version, header, extension, body, none⟩ => by
    have hbody := Body.length_payload version header body
    have hsection := BodyHeader.length_sectionBytes version header extension
    rw [Record.encode, Record.size]
    simp only [List.length_append, length_u32, hbody, hsection, recordHeaderSize]

theorem Body.length_payload (version : FormatVersion) (header : Option BodyHeader) :
    ∀ body : Body Record, (body.payload version header).length = body.payloadSize version
  | .stateChange change =>
    StateChange.length_layout version change _ (StateChange.length_titleBytes _)
  | .scaler readout => Scaler.length_layout version readout _
  | .text list => TextList.length_payload version list
  | .physicsEvent _ => rfl
  | .physicsEventCount count => EventCount.length_payload version count
  | .fragment part => Fragment.length_payloadBytes version header part
  | .composite _ children => by
    have hchildren := Record.length_encodeAll children
    rw [Body.payload, Body.payloadSize, hchildren]
  | .glomParameters parameters => GlomParameters.length_layout parameters _
  | .dataFormat format => DataFormat.length_payload format
  | .abnormalEnd => rfl
  | .unknown _ _ => rfl

theorem Record.length_encodeAll : ∀ rs : List Record, (Record.encodeAll rs).length = Record.sizes rs
  | [] => rfl
  | r :: rs => by
    rw [Record.encodeAll, Record.sizes, List.length_append, Record.length_encode r,
      Record.length_encodeAll rs]
end

mutual
theorem Record.same_self : ∀ r : Record, r.same r = true
  | ⟨_, _, _, body, _⟩ => by simp [Record.same, Body.same_self body]

theorem Body.same_self : ∀ body : Body Record, body.same body = true
  | .composite _ children => by simp [Body.same, Record.allSame_self children]
  | .stateChange _ | .scaler _ | .text _ | .physicsEvent _ | .physicsEventCount _ | .fragment _
  | .glomParameters _ | .dataFormat _ | .abnormalEnd | .unknown _ _ => by simp [Body.same]

theorem Record.allSame_self : ∀ rs : List Record, Record.allSame rs rs = true
  | [] => rfl
  | r :: rs => by simp [Record.allSame, Record.same_self r, Record.allSame_self rs]
end

theorem Body.isFragment_norm (version : FormatVersion) (body : Body Record) :
    (body.norm version).isFragment = body.isFragment := by
  cases body <;> rfl

theorem Body.kind_norm (version : FormatVersion) (body : Body Record) :
    (body.norm version).kind = body.kind := by
  cases body <;> rfl

/-- What is checked about a body beside its kind, when a record is built. -/
def Body.Fits (version : FormatVersion) : Body Record → Prop
  | .stateChange change => change.kind.isStateChange = true
  | .text list => list.kind.isText = true
  | .composite _ children => ∀ child ∈ children, child.version = version
  | _ => True

namespace Record

theorem build_eq_ok {version : FormatVersion} {header : Option BodyHeader} {body : Body Record}
    {r : Record} :
    build version header body = .ok r ↔
      body.Fits version ∧ RecordKind.ofTag version body.kind.typeTag = body.kind ∧
        r = assemble version header body := by
  have hsupported : build.supported version header body = .ok r ↔
      RecordKind.ofTag version body.kind.typeTag = body.kind ∧
        r = assemble version header body := by
    unfold build.supported
    split
    · rename_i hkind
      simp [hkind, eq_comm]
    · rename_i hkind
      simp [hkind]
  cases body with
  | stateChange change =>
    by_cases h : change.kind.isStateChange = true <;> simp [build, Body.Fits, h, hsupported]
  | text list =>
    by_cases h : list.kind.isText = true <;> simp [build, Body.Fits, h, hsupported]
  | composite base children =>
    unfold build
    simp only [Body.Fits]
    cases hfind : children.find? fun child => child.version ≠ version with
    | none =>
      rw [hsupported]
      have hall : ∀ child ∈ children, child.version = version := by
        simpa using List.find?_eq_none.1 hfind
      exact (and_iff_right hall).symm
    | some child =>
      have hbad := List.find?_some hfind
      have hmem := List.mem_of_find?_eq_some hfind
      simp only [reduceCtorEq, false_iff]
      rintro ⟨hall, -⟩
      simp [hall child hmem] at hbad
  | _ => simp [build, Body.Fits, hsupported]

/-- Records that were read, and those that the constructors make out of records. The other
    constructors are special cases of `build`. -/
inductive Made : Record → Prop
  | decoded {version : FormatVersion} {bytes : Bytes} {r : Record} :
      decode version bytes = .ok r → Made r
  | physicsEvent (version : FormatVersion) (header : Option BodyHeader) (payload : Bytes) :
      Made (Record.physicsEvent version header payload)
  | built {version : FormatVersion} {header : Option BodyHeader} {body : Body Record} {r : Record} :
      (∀ base children, body = .composite base children → ∀ child ∈ children, Made child) →
      build version header body = .ok r → Made r

/-- A block is read back as the normal form of the record that it was written for. -/
def ReadsBack (r : Record) : Prop :=
  IsBlock r.encode ∧ ∀ depth q,
    decodeWire r.version depth r.encode = .ok q ↔
      (∀ s ∈ r.texts, 0 ∉ s) ∧ r.nesting ≤ depth ∧ q = r.norm

theorem norm_of_wire {r : Record} {wire : Bytes} (h : r.wire = some wire) : r.norm = r := by
  obtain ⟨_, _, _, _, _⟩ := r
  cases h
  rw [norm]

theorem readsBack_of_decodeWire {version : FormatVersion} {depth : Nat} {wire : Bytes} {r : Record}
    (hblock : IsBlock wire) (h : decodeWire version depth wire = .ok r) : ReadsBack r := by
  have hwire := wire_of_decodeWire h
  rw [ReadsBack, encode_of_wire hwire, version_of_decodeWire h, norm_of_wire hwire]
  refine ⟨hblock, fun depth' q => ?_⟩
  rw [decodeWire_replay h]
  exact (and_iff_right (texts_nesting_of_decodeWire h).1).symm

theorem forall₂_iff_eq_map {α β : Type} {R : α → β → Prop} {P : α → Prop} {f : α → β}
    {xs : List α} {ys : List β} (h : ∀ x ∈ xs, ∀ y, R x y ↔ P x ∧ y = f x) :
    List.Forall₂ R xs ys ↔ (∀ x ∈ xs, P x) ∧ ys = xs.map f := by
  induction xs generalizing ys with
  | nil => simp
  | cons x xs ih =>
    obtain ⟨hx, hxs⟩ := List.forall_mem_cons.1 h
    simp only [List.forall₂_cons_left_iff, hx, ih hxs, List.forall_mem_cons, List.map_cons]
    constructor
    · rintro ⟨_, _, ⟨hP, rfl⟩, ⟨hPs, rfl⟩, rfl⟩
      exact ⟨⟨hP, hPs⟩, rfl⟩
    · rintro ⟨⟨hP, hPs⟩, rfl⟩
      exact ⟨_, _, ⟨hP, rfl⟩, ⟨hPs, rfl⟩, rfl⟩

/-- Children that can each be read back are read back together. -/
theorem readChildren_encodeAll {version : FormatVersion} {depth : Nat}
    {children children' : List Record} (hversion : ∀ child ∈ children, child.version = version)
    (hback : ∀ child ∈ children, ReadsBack child) :
    readChildren (childReader version depth) (encodeAll children) = .ok (children', []) ↔
      (∀ s ∈ textsOfAll children, 0 ∉ s) ∧ nestingAround children ≤ depth ∧
        children' = norms children := by
  have hflat : encodeAll children = (children.map encode).flatten := by
    rw [encodeAll_eq_flatMap, List.flatMap_def]
  have hone : ∀ child ∈ children, ∀ r,
      (IsBlock child.encode ∧
        ∃ below, depth = below + 1 ∧ decodeWire version below child.encode = .ok r) ↔
      ((∀ s ∈ child.texts, 0 ∉ s) ∧ child.nesting < depth) ∧ r = child.norm := by
    intro child hmem r
    obtain ⟨hblock, hread⟩ := hback child hmem
    rw [hversion child hmem] at hread
    simp only [hblock, true_and, hread]
    constructor
    · rintro ⟨below, rfl, htexts, hle, hr⟩
      exact ⟨⟨htexts, Nat.lt_succ_of_le hle⟩, hr⟩
    · rintro ⟨⟨htexts, hlt⟩, hr⟩
      obtain ⟨below, rfl⟩ := Nat.exists_eq_add_one_of_ne_zero (Nat.ne_of_gt (Nat.zero_lt_of_lt hlt))
      exact ⟨below, rfl, htexts, Nat.le_of_lt_succ hlt, hr⟩
  have hall := @forall₂_iff_eq_map _ _ _ _ _ _ children' hone
  constructor
  · intro h
    obtain ⟨-, blocks, hblocks, hread⟩ := readChildren_childReader.1 h
    have hsame : children.map encode = blocks :=
      flatten_injective (by simpa using fun child hmem => (hback child hmem).1)
        ((List.forall₂_and_left _ _).1 hread).1 (hflat.symm.trans hblocks)
    rw [← hsame, List.forall₂_map_left_iff] at hread
    obtain ⟨hboth, rfl⟩ := hall.1 hread
    exact ⟨forall_mem_textsOfAll.2 fun child hmem => (hboth child hmem).1,
      nestingAround_le_iff.2 fun child hmem => (hboth child hmem).2, (norms_eq_map children).symm⟩
  · rintro ⟨htexts, hnesting, rfl⟩
    rw [forall_mem_textsOfAll] at htexts
    rw [nestingAround_le_iff] at hnesting
    rw [norms_eq_map] at hall ⊢
    refine readChildren_childReader.2 ⟨rfl, children.map encode, hflat, ?_⟩
    rw [List.forall₂_map_left_iff]
    exact hall.2 ⟨fun child hmem => ⟨htexts child hmem, hnesting child hmem⟩, rfl⟩

section Body

variable {version : FormatVersion} {header header' : Option BodyHeader} {body body' : Body Record}
  {depth : Nat}

/-- The header that stands in the header section of a record. -/
def sectionHeader (version : FormatVersion) (header : Option BodyHeader) : Option BodyHeader :=
  if version = .v10 then none else header

/-- Anything but a fragment is read with the header that it comes back with. -/
theorem sectionHeader_eq (hheader : version = .v10 → header = none)
    (hfragment : body.isFragment = false) :
    sectionHeader version header = body.normHeader version header := by
  unfold sectionHeader Body.normHeader
  by_cases hversion : version = .v10
  · simp [hversion, hfragment, hheader hversion]
  · simp [hversion]

/-- The strings of a text record come back together, and only if none has a zero byte in it. -/
theorem readBody_text_payload {child : Option (Bytes → Except RecordError Record)} {list : TextList}
    (hkind : list.kind.isText = true) (hcount : list.strings.length < 2 ^ 32) :
    readBody version header child list.kind (list.payload version) =
        .ok ((header', body'), []) ↔
      (∀ s ∈ list.strings, 0 ∉ s) ∧ header' = header ∧ body' = .text (list.norm version) := by
  rw [readBody_of_isText hkind]
  simp only [bind_eq_ok, pure_eq_ok, Prod.mk.injEq]
  constructor
  · rintro ⟨read, _, hread, ⟨rfl, rfl⟩, rfl⟩
    obtain ⟨hzero, rfl⟩ := (TextList.read_payload_iff hcount).1 hread
    exact ⟨hzero, rfl, rfl⟩
  · intro hback
    obtain ⟨hzero, rfl, rfl⟩ := hback
    exact ⟨_, [], (TextList.read_payload_iff hcount).2 ⟨hzero, rfl⟩, ⟨rfl, rfl⟩, rfl⟩

/-- The first generation has the header of a fragment in its payload. -/
theorem readBody_fragment_payload {child : Option (Bytes → Except RecordError Record)}
    {part : Fragment} (hlength : part.payload.length < 2 ^ 32) :
    readBody version (sectionHeader version header) child
        (if part.unknownPayload then .unknownPayloadFragment else .fragment)
        (part.payloadBytes version header) =
      .ok ((Body.normHeader version header (.fragment part), .fragment part), []) := by
  rw [readBody_fragment, Body.normHeader]
  by_cases hversion : version = .v10
  · have hread : Fragment.readHeader (part.payloadBytes .v10 header) =
        .ok (header.getD Fragment.missingHeader, part.payload) :=
      Fragment.readHeader_eq_ok.2 ⟨rfl, hlength⟩
    simp only [hversion, if_true, bind_map_left, Body.isFragment, and_self]
    exact bind_apply hread
  · simp only [hversion, if_false, false_and, sectionHeader, Fragment.payloadBytes]
    rfl

/-- The children of a composite record come back together. -/
theorem readBody_composite_payload {base : UInt32} {children : List Record}
    (hversion : ∀ child ∈ children, child.version = version)
    (hback : ∀ child ∈ children, ReadsBack child) :
    readBody version header (childReader version depth) (.composite base) (encodeAll children) =
        .ok ((header', body'), []) ↔
      (∀ s ∈ textsOfAll children, 0 ∉ s) ∧ nestingAround children ≤ depth ∧
        header' = header ∧ body' = .composite base (norms children) := by
  simp only [readBody, bind_eq_ok, pure_eq_ok, Prod.mk.injEq]
  constructor
  · rintro ⟨children', _, hread, ⟨rfl, rfl⟩, rfl⟩
    obtain ⟨htexts, hnesting, rfl⟩ := (readChildren_encodeAll hversion hback).1 hread
    exact ⟨htexts, hnesting, rfl, rfl⟩
  · intro hall
    obtain ⟨htexts, hnesting, rfl, rfl⟩ := hall
    exact ⟨_, [], (readChildren_encodeAll hversion hback).2 ⟨htexts, hnesting, rfl⟩, ⟨rfl, rfl⟩,
      rfl⟩

/-- A payload that was written is read back as its normal form. -/
theorem readBody_payload (hfits : body.Fits version) (hsize : body.payloadSize version < 2 ^ 32)
    (hheader : version = .v10 → body.isFragment = false → header = none)
    (hback : ∀ base children, body = .composite base children →
      ∀ child ∈ children, ReadsBack child) :
    readBody version (sectionHeader version header) (childReader version depth) body.kind
        (body.payload version header) = .ok ((header', body'), []) ↔
      (∀ s ∈ body.texts, 0 ∉ s) ∧ body.nesting ≤ depth ∧
        header' = body.normHeader version header ∧ body' = body.norm version := by
  -- Most bodies have neither strings nor children, so there is nothing that could fail.
  have hleaf (htexts : body.texts = []) (hnesting : body.nesting = 0)
      (h : readBody version (sectionHeader version header) (childReader version depth) body.kind
          (body.payload version header) =
        .ok ((body.normHeader version header, body.norm version), [])) :
      readBody version (sectionHeader version header) (childReader version depth) body.kind
          (body.payload version header) = .ok ((header', body'), []) ↔
        (∀ s ∈ body.texts, 0 ∉ s) ∧ body.nesting ≤ depth ∧
          header' = body.normHeader version header ∧ body' = body.norm version := by
    rw [h, htexts, hnesting]
    simp [eq_comm]
  have hplain (hfragment : body.isFragment = false) :
      sectionHeader version header = body.normHeader version header :=
    sectionHeader_eq (fun hversion => hheader hversion hfragment) hfragment
  cases body with
  | stateChange change =>
    refine hleaf rfl rfl ?_
    rw [Body.kind, readBody_of_isStateChange hfits, hplain rfl]
    exact bind_apply (StateChange.read_payload version change)
  | scaler readout =>
    have hle : readout.values.length ≤ (Body.scaler readout).payloadSize version := by
      cases version <;> simp only [Body.payloadSize] <;> omega
    refine hleaf rfl rfl ?_
    rw [hplain rfl]
    exact bind_apply (Scaler.read_payload version readout (Nat.lt_of_le_of_lt hle hsize))
  | text list =>
    have hle : list.strings.length ≤ (Body.text list).payloadSize version := by
      have := TextList.length_strings_le list.strings
      cases version <;> simp only [Body.payloadSize] <;> omega
    rw [hplain rfl, Body.kind, Body.payload,
      readBody_text_payload hfits (Nat.lt_of_le_of_lt hle hsize)]
    exact and_congr_right fun _ => (and_iff_right (Nat.zero_le depth)).symm
  | physicsEventCount count =>
    refine hleaf rfl rfl ?_
    rw [hplain rfl]
    exact bind_apply (EventCount.read_payload version count)
  | fragment part =>
    have hlength : part.payload.length ≤ (Body.fragment part).payloadSize version := by
      unfold Body.payloadSize
      split <;> omega
    refine hleaf rfl rfl ?_
    exact readBody_fragment_payload (Nat.lt_of_le_of_lt hlength hsize)
  | composite base children =>
    rw [hplain rfl]
    exact readBody_composite_payload hfits (hback base children rfl)
  | glomParameters parameters =>
    refine hleaf rfl rfl ?_
    rw [hplain rfl]
    exact bind_apply (GlomParameters.read_payload parameters)
  | dataFormat format =>
    refine hleaf rfl rfl ?_
    rw [hplain rfl]
    exact bind_apply (DataFormat.read_eq_ok.2 (List.append_nil format.payload).symm)
  | physicsEvent | abnormalEnd | unknown =>
    refine hleaf rfl rfl ?_
    rw [hplain rfl]
    rfl

theorem read_sectionBytes (payload : Bytes) :
    BodyHeader.read version (BodyHeader.sectionBytes version header [] ++ payload) =
      .ok ((sectionHeader version header, []), payload) := by
  refine BodyHeader.read_eq_ok.2 ⟨_, rfl, ?_⟩
  cases version with
  | v10 => exact .missing rfl
  | v11 | v12 =>
    cases header with
    | none => exact .empty _ rfl (by decide)
    | some h => exact .full h [] rfl (by decide)

/-- After the words in front of it, only the payload decides what is read. -/
theorem readFields_written {child : Option (Bytes → Except RecordError Record)} {typeTag : UInt32}
    {payload : Bytes} {r : Record} :
    readFields version child
        (u32 typeTag ++ (BodyHeader.sectionBytes version header [] ++ payload)) = .ok (r, []) ↔
      ∃ header' body',
        readBody version (sectionHeader version header) child (RecordKind.ofTag version typeTag)
          payload = .ok ((header', body'), []) ∧ r = ofRead version header' [] body' := by
  rw [readFields_eq, bind_apply (u32_eq_ok.2 rfl), bind_apply (read_sectionBytes payload)]
  simp only [bind_eq_ok, pure_eq_ok]
  constructor
  · rintro ⟨⟨header', body'⟩, _, hbody, rfl, rfl⟩
    exact ⟨header', body', hbody, rfl⟩
  · rintro ⟨header', body', hbody, rfl⟩
    exact ⟨(header', body'), [], hbody, rfl, rfl⟩

end Body

theorem size_le_sizes {r : Record} {rs : List Record} (h : r ∈ rs) : r.size ≤ sizes rs := by
  induction rs with
  | nil => simp at h
  | cons r' rs ih =>
    rw [sizes]
    rcases List.mem_cons.1 h with rfl | h
    · omega
    · have := ih h
      omega

theorem isBlock_encode_of_unread {version : FormatVersion} {header : Option BodyHeader}
    {extension : Bytes} {body : Body Record}
    (hsize : size ⟨version, header, extension, body, none⟩ < 2 ^ 32) :
    IsBlock (encode ⟨version, header, extension, body, none⟩) := by
  have hlen := length_encode ⟨version, header, extension, body, none⟩
  constructor
  · rw [hlen, size]
    omega
  · rw [hlen, encode, List.append_assoc, List.append_assoc, wordAt_zero_u32_append,
      UInt32.toNat_ofNat_of_lt' hsize]

/-- What is read from the normal form of a header and a payload. -/
theorem ofRead_norm {version : FormatVersion} {header : Option BodyHeader} {body : Body Record}
    (hheader : version = .v10 → body.isFragment = false → header = none) :
    { ofRead version (body.normHeader version header) [] (body.norm version) with
      wire := some (encode ⟨version, header, [], body, none⟩) } =
    norm ⟨version, header, [], body, none⟩ := by
  have hkept : (if (version = .v10 && !(body.norm version).isFragment) = true then none
      else body.normHeader version header) = body.normHeader version header := by
    rw [Body.isFragment_norm]
    split
    · rename_i hnone
      simp only [Bool.and_eq_true, decide_eq_true_eq, Bool.not_eq_true'] at hnone
      simp [Body.normHeader, hnone.2, hheader hnone.1 hnone.2]
    · rfl
  simp only [ofRead, assemble, hkept, ite_self, norm]

/-- A record that was made in memory is read back, if its children are. -/
theorem readsBack_assemble {version : FormatVersion} {header : Option BodyHeader}
    {body : Body Record} (hfits : body.Fits version)
    (hkind : RecordKind.ofTag version body.kind.typeTag = body.kind)
    (hsize : (assemble version header body).size < 2 ^ 32)
    (hback : ∀ base children, body = .composite base children →
      ∀ child ∈ children, ReadsBack child) :
    ReadsBack (assemble version header body) := by
  obtain ⟨held, hheld⟩ : ∃ held, assemble version header body = ⟨version, held, [], body, none⟩ ∧
      (version = .v10 → body.isFragment = false → held = none) := by
    refine ⟨_, rfl, ?_⟩
    rintro rfl hfragment
    simp [hfragment]
  obtain ⟨heq, hheader⟩ := hheld
  rw [heq] at hsize ⊢
  have hpayload : body.payloadSize version < 2 ^ 32 := by
    rw [size] at hsize
    omega
  refine ⟨isBlock_encode_of_unread hsize, fun depth q => ?_⟩
  have hdrop : (encode ⟨version, held, [], body, none⟩).drop 4 =
      u32 body.kind.typeTag ++
        (BodyHeader.sectionBytes version held [] ++ body.payload version held) := by
    rw [encode, List.append_assoc, List.append_assoc]
    exact List.drop_left' (length_u32 _)
  rw [decodeWire_eq_ok, hdrop]
  simp only [readFields_written, hkind, readBody_payload hfits hpayload hheader hback]
  constructor
  · rintro ⟨_, ⟨_, _, ⟨htexts, hnesting, rfl, rfl⟩, rfl⟩, rfl⟩
    exact ⟨htexts, hnesting, ofRead_norm hheader⟩
  · rintro ⟨htexts, hnesting, rfl⟩
    exact ⟨_, ⟨_, _, ⟨htexts, hnesting, rfl, rfl⟩, rfl⟩, (ofRead_norm hheader).symm⟩

/-- The records in a record that a program holds can be taken out of it. -/
theorem Made.of_mem_children {r child : Record} (h : Made r) (hmem : child ∈ r.children) :
    Made child := by
  cases h with
  | @decoded version _ _ hdecode =>
    obtain ⟨used, hprefix⟩ := decode_eq_ok.1 hdecode
    obtain ⟨block, _, -, hread, -⟩ := decodePrefix_eq_ok.1 hprefix
    obtain ⟨inner, hinner, below, hdepth, hchild⟩ := decodeWire_of_mem_children hread hmem
    have hle := (texts_nesting_of_decodeWire hchild).2
    exact .decoded ((decode_block hinner).2 (decodeWire_of_nesting_le hchild (by omega)))
  | physicsEvent => simp [Record.physicsEvent, assemble, children] at hmem
  | @built _ _ body _ hchildren hbuild =>
    obtain ⟨-, -, rfl⟩ := build_eq_ok.1 hbuild
    cases body with
    | composite base children => exact hchildren base children rfl child hmem
    | _ => simp [assemble, children] at hmem

theorem Made.of_body {r : Record} (h : Made r) :
    ∀ base children, r.body = .composite base children → ∀ child ∈ children, Made child := by
  intro base children hbody child hmem
  apply h.of_mem_children
  rw [Record.children, hbody]
  exact hmem

/-- Every record that a program can hold is read back. -/
theorem Made.readsBack {r : Record} (h : Made r) (hsize : r.size < 2 ^ 32) : ReadsBack r := by
  induction h with
  | decoded hdecode =>
    obtain ⟨used, hprefix⟩ := decode_eq_ok.1 hdecode
    obtain ⟨block, _, ⟨-, hblock⟩, hread, -⟩ := decodePrefix_eq_ok.1 hprefix
    exact readsBack_of_decodeWire hblock hread
  | physicsEvent version header payload =>
    exact readsBack_assemble trivial (RecordKind.ofTag_physicsEvent version) hsize (by simp)
  | @built version header body r _ hbuild ih =>
    obtain ⟨hfits, hkind, rfl⟩ := build_eq_ok.1 hbuild
    refine readsBack_assemble hfits hkind hsize ?_
    rintro base children rfl child hmem
    refine ih base children rfl child hmem ?_
    have hchild := size_le_sizes hmem
    have hwhole : sizes children ≤ (assemble version header (.composite base children)).size := by
      show _ ≤ size ⟨version, _, [], .composite base children, none⟩
      rw [size, Body.payloadSize]
      omega
    omega

theorem kind_norm (r : Record) : r.norm.kind = r.kind := by
  obtain ⟨version, header, extension, body, _ | wire⟩ := r
  · exact Body.kind_norm version body
  · rfl

theorem version_norm (r : Record) : r.norm.version = r.version := by
  obtain ⟨_, _, _, _, _ | _⟩ := r <;> rfl

theorem header_norm {r : Record}
    (h : r.header.isSome ∨ r.version ≠ .v10 ∨ r.body.isFragment = false) :
    r.norm.header = r.header := by
  obtain ⟨version, header, extension, body, _ | wire⟩ := r
  · show body.normHeader version header = header
    unfold Body.normHeader
    split
    · rename_i hfragment
      rcases h with h | h | h
      · obtain ⟨held, rfl⟩ := Option.isSome_iff_exists.1 h
        rfl
      · exact absurd hfragment.1 h
      · rw [hfragment.2] at h
        cases h
    · rfl
  · rfl

/-- What a program holds can be written and read back exactly when no string of a text record
    in it has a zero byte, and its composite records lie no deeper in each other than is
    followed. It comes back as its normal form: the same kind of record, of the same
    generation, with the same header unless it is a fragment that has to have one. -/
theorem decode_encode {r : Record} (hmade : Made r) (hsize : r.size < 2 ^ 32) :
    ((∃ q, decode r.version r.encode = .ok q) ↔
      (∀ s ∈ r.texts, 0 ∉ s) ∧ r.nesting ≤ 32) ∧
    ∀ q, decode r.version r.encode = .ok q →
      q = r.norm ∧ (q == r.norm) = true ∧ q.kind = r.kind ∧ q.version = r.version ∧
        (r.header.isSome ∨ r.version ≠ .v10 ∨ r.body.isFragment = false →
          q.header = r.header) := by
  obtain ⟨hblock, hread⟩ := hmade.readsBack hsize
  have hdecode : ∀ q, decode r.version r.encode = .ok q ↔
      (∀ s ∈ r.texts, 0 ∉ s) ∧ r.nesting ≤ 32 ∧ q = r.norm := by
    intro q
    rw [decode_block hblock, hread, maxDepth]
  constructor
  · constructor
    · rintro ⟨q, hq⟩
      obtain ⟨htexts, hnesting, -⟩ := (hdecode q).1 hq
      exact ⟨htexts, hnesting⟩
    · rintro ⟨htexts, hnesting⟩
      exact ⟨_, (hdecode _).2 ⟨htexts, hnesting, rfl⟩⟩
  · intro q hq
    obtain ⟨-, -, rfl⟩ := (hdecode q).1 hq
    exact ⟨rfl, same_self _, kind_norm r, version_norm r, header_norm⟩

/-- A composite record around a run transition whose title has a zero byte in it, a text record,
    and a composite record without children. -/
def nestedExample : Record :=
  assemble .v12 none (.composite 30
    [assemble .v12 none (.stateChange { kind := .beginRun, runNumber := 7, title := [72, 0, 33] }),
     assemble .v12 (some ⟨5, 1, 0⟩) (.text ⟨.packetTypes, 0, 0, 1, [[112], []], 3⟩),
     assemble .v12 none (.composite 31 [])])

theorem made_nestedExample : Made nestedExample := by
  have hbuild : build .v12 none nestedExample.body = .ok nestedExample := rfl
  refine .built ?_ hbuild
  rintro base children hbody child hmem
  cases hbody
  have hplain (header : Option BodyHeader) (body : Body Record)
      (hbody : ∀ base child children, body ≠ .composite base (child :: children))
      (hbuild : build .v12 header body = .ok (assemble .v12 header body)) :
      Made (assemble .v12 header body) := by
    refine .built ?_ hbuild
    rintro base children rfl child hmem
    cases children with
    | nil => simp at hmem
    | cons head tail => exact absurd rfl (hbody base head tail)
  simp only [List.mem_cons, List.not_mem_nil, or_false] at hmem
  rcases hmem with rfl | rfl | rfl <;> exact hplain _ _ (by simp) rfl

theorem decode_encode_nestedExample :
    nestedExample.size < 2 ^ 32 ∧ decode .v12 nestedExample.encode = .ok nestedExample.norm := by
  have hsize : nestedExample.size < 2 ^ 32 := by decide
  obtain ⟨hiff, heq⟩ := decode_encode made_nestedExample hsize
  obtain ⟨q, hq⟩ := hiff.2 ⟨by decide, by decide⟩
  obtain ⟨rfl, -⟩ := heq q hq
  exact ⟨hsize, hq⟩

end Record

end DaqStream
