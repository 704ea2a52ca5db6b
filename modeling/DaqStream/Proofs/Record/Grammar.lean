import DaqStream.Proofs.Record.Wire

/-!
# The wire grammar

Which strings of bytes are records, said without reading them: what the type tags stand for, where
the words stand that count something, and how long everything is. The reader finds the same kind for
a tag (`means_iff`), and `decodePrefix_accepts_iff` says that it accepts exactly these strings.
-/

namespace DaqStream

open LittleEndian Reading

namespace WireGrammar

/-- A body-header section. The first generation has none; in the others its size word is
    zero or four, or counts the whole of at least twenty bytes. -/
def HeaderSection (version : FormatVersion) (bytes : Bytes) : Prop :=
  match version with
  | .v10 => bytes = []
  | .v11 | .v12 =>
    (bytes.length = 4 ∧ (wordAt 0 bytes = 0 ∨ wordAt 0 bytes = 4)) ∨
      (20 ≤ bytes.length ∧ wordAt 0 bytes = bytes.length)

/-- A number that depends on the generation. -/
def perVersion (version : FormatVersion) (inV10 inV11 inV12 : Nat) : Nat :=
  match version with
  | .v10 => inV10
  | .v11 => inV11
  | .v12 => inV12

/-- What a type tag stands for. Some have a meaning since the second generation, and in the third
    the sixteenth bit marks a composite record, which stands for the tag without it. -/
inductive Means (version : FormatVersion) : UInt32 → RecordKind → Prop
  | beginRun : Means version 1 .beginRun
  | endRun : Means version 2 .endRun
  | pauseRun : Means version 3 .pauseRun
  | resumeRun : Means version 4 .resumeRun
  | abnormalEnd : version ≠ .v10 → Means version 5 .abnormalEnd
  | packetTypes : Means version 10 .packetTypes
  | monitoredVariables : Means version 11 .monitoredVariables
  | dataFormat : version ≠ .v10 → Means version 12 .dataFormat
  | scaler : Means version 20 .scaler
  | physicsEvent : Means version 30 .physicsEvent
  | physicsEventCount : Means version 31 .physicsEventCount
  | fragment : Means version 40 .fragment
  | unknownPayloadFragment : Means version 41 .unknownPayloadFragment
  | glomParameters : version ≠ .v10 → Means version 42 .glomParameters
  | composite {typeTag : UInt32} : version = .v12 → typeTag &&& 0x8000 ≠ 0 →
      Means version typeTag (.composite (typeTag &&& 0xffff7fff))
  /-- Any other tag is kept. -/
  | unknown {typeTag : UInt32} : typeTag ∉ [1, 2, 3, 4, 10, 11, 20, 30, 31, 40, 41] →
      (version ≠ .v10 → typeTag ∉ [5, 12, 42]) → (version = .v12 → typeTag &&& 0x8000 = 0) →
      Means version typeTag (.unknown typeTag)

/-- The payload of a record of a kind, unless it is made of records. -/
def PlainPayload (version : FormatVersion) (kind : RecordKind) (payload : Bytes) : Prop :=
  match kind with
  | .beginRun | .endRun | .pauseRun | .resumeRun =>
    payload.length = perVersion version 93 97 101
  | .scaler =>
    payload.length =
      perVersion version 16 24 28 + 4 * wordAt (perVersion version 12 16 16) payload
  | .packetTypes | .monitoredVariables =>
    ∃ (fixed : Bytes) (strings : List Bytes),
      payload = fixed ++ strings.flatMap (fun s => s ++ [0]) ∧
      fixed.length = perVersion version 12 16 20 ∧
      strings.length = wordAt 8 payload ∧ ∀ s ∈ strings, 0 ∉ s
  | .physicsEventCount => payload.length = perVersion version 16 20 24
  | .fragment | .unknownPayloadFragment =>
    version = .v10 → 20 ≤ payload.length ∧ wordAt 12 payload = payload.length - 20
  | .glomParameters => payload.length = 12
  | .dataFormat => payload.length = 4
  | .abnormalEnd => payload = []
  | .physicsEvent | .unknown _ => True
  | .composite _ => False

/-- The bytes of a record that lies in `depth` composite records. -/
inductive IsRecord (version : FormatVersion) : Nat → Bytes → Prop
  | plain {depth : Nat} (size : Bytes) (typeTag : UInt32) (kind : RecordKind)
      (front payload : Bytes) :
      size.length = 4 → HeaderSection version front → Means version typeTag kind →
      PlainPayload version kind payload →
      IsRecord version depth (size ++ u32 typeTag ++ front ++ payload)
  /-- The payload is the children one after the other, each beginning with its own length.
      Deep down there are no children. -/
  | composite {depth : Nat} (size : Bytes) (typeTag base : UInt32) (front : Bytes)
      (children : List Bytes) :
      size.length = 4 → HeaderSection version front →
      Means version typeTag (.composite base) →
      (∀ child ∈ children, 8 ≤ wordAt 0 child ∧ wordAt 0 child = child.length) →
      (∀ child ∈ children, IsRecord version (depth + 1) child) →
      (32 ≤ depth → children.flatten = []) →
      IsRecord version depth (size ++ u32 typeTag ++ front ++ children.flatten)

end WireGrammar

open WireGrammar

namespace RecordKind

theorem ofTag_of_means {version : FormatVersion} {typeTag : UInt32} {kind : RecordKind}
    (h : Means version typeTag kind) : ofTag version typeTag = kind := by
  cases h with
  | composite hversion hflag => exact if_pos ⟨hversion, hflag⟩
  | abnormalEnd hversion | dataFormat hversion | glomParameters hversion =>
    cases version with
    | v10 => exact absurd rfl hversion
    | v11 | v12 => rfl
  | unknown htags hlater hflag =>
    simp only [List.mem_cons, List.not_mem_nil, or_false, not_or] at htags hlater
    have hplain : ¬ (version = .v12 ∧ typeTag &&& compositeFlag ≠ 0) :=
      fun hcomposite => hcomposite.2 (hflag hcomposite.1)
    have hlate (tag : UInt32) (h : version ≠ .v10 → typeTag ≠ tag) :
        ¬ (typeTag = tag ∧ version ≠ .v10) :=
      fun hmeant => h hmeant.2 hmeant.1
    simp only [ofTag, hplain, htags, hlate 5 fun h => (hlater h).1,
      hlate 12 fun h => (hlater h).2.1, hlate 42 fun h => (hlater h).2.2, if_false]
  | _ => cases version <;> rfl

theorem means_ofTag (version : FormatVersion) (typeTag : UInt32) :
    Means version typeTag (ofTag version typeTag) := by
  have hite {c : Prop} [Decidable c] {kind kind' : RecordKind}
      (h : c → Means version typeTag kind) (h' : ¬ c → Means version typeTag kind') :
      Means version typeTag (if c then kind else kind') := by
    split
    · exact h ‹c›
    · exact h' ‹¬ c›
  unfold ofTag
  refine hite (fun h => .composite h.1 h.2) fun hplain => ?_
  refine hite (fun h => h ▸ .beginRun) fun h1 => ?_
  refine hite (fun h => h ▸ .endRun) fun h2 => ?_
  refine hite (fun h => h ▸ .pauseRun) fun h3 => ?_
  refine hite (fun h => h ▸ .resumeRun) fun h4 => ?_
  refine hite (fun h => h.1 ▸ .abnormalEnd h.2) fun h5 => ?_
  refine hite (fun h => h ▸ .packetTypes) fun h10 => ?_
  refine hite (fun h => h ▸ .monitoredVariables) fun h11 => ?_
  refine hite (fun h => h.1 ▸ .dataFormat h.2) fun h12 => ?_
  refine hite (fun h => h ▸ .scaler) fun h20 => ?_
  refine hite (fun h => h ▸ .physicsEvent) fun h30 => ?_
  refine hite (fun h => h ▸ .physicsEventCount) fun h31 => ?_
  refine hite (fun h => h ▸ .fragment) fun h40 => ?_
  refine hite (fun h => h ▸ .unknownPayloadFragment) fun h41 => ?_
  refine hite (fun h => h.1 ▸ .glomParameters h.2) fun h42 => ?_
  apply Means.unknown
  · simp [h1, h2, h3, h4, h10, h11, h20, h30, h31, h40, h41]
  · intro hversion
    simp only [hversion, ne_eq, not_false_eq_true, and_true] at h5 h12 h42
    simp [h5, h12, h42]
  · intro hversion
    by_contra hflag
    exact hplain ⟨hversion, hflag⟩

/-- The reader takes a tag for what it stands for. -/
theorem means_iff {version : FormatVersion} {typeTag : UInt32} {kind : RecordKind} :
    Means version typeTag kind ↔ ofTag version typeTag = kind := by
  constructor
  · exact ofTag_of_means
  · intro h
    rw [← h]
    exact means_ofTag version typeTag

end RecordKind

theorem BodyHeader.consumes_read {version : FormatVersion} {bytes : Bytes} :
    Consumes (BodyHeader.read version) bytes ↔ HeaderSection version bytes := by
  cases version with
  | v10 => simp [BodyHeader.read, FormatVersion.hasHeaderWord, HeaderSection, consumes_pure]
  | v11 | v12 =>
    simp only [BodyHeader.read, FormatVersion.hasHeaderWord, if_true, HeaderSection,
      consumes_u32_bind, consumes_u64_bind, consumes_bytes_bind, consumes_ite, consumes_pure,
      not_consumes_throw, ofNat_wordAt_eq_iff, toNat_ofNat_wordAt, List.length_drop,
      List.drop_drop, List.drop_eq_nil_iff, wireSize, UInt32.reduceToNat, and_false,
      or_false]
    omega

theorem StateChange.consumes_read {version : FormatVersion} {kind : RecordKind} {bytes : Bytes} :
    Consumes (StateChange.read version kind) bytes ↔
      bytes.length = perVersion version 93 97 101 := by
  cases version <;>
  · simp only [StateChange.read, readTitle, u32If, bind_assoc, pure_bind, ne_eq, reduceCtorEq,
      not_true_eq_false, not_false_eq_true, decide_true, decide_false, if_true, if_false,
      Bool.false_eq_true, consumes_u32_bind, consumes_bytes_bind, consumes_pure,
      List.length_drop, List.drop_drop, List.drop_eq_nil_iff, titleField, perVersion]
    omega

theorem Scaler.consumes_read {version : FormatVersion} {bytes : Bytes} :
    Consumes (Scaler.read version) bytes ↔
      bytes.length =
        perVersion version 16 24 28 + 4 * wordAt (perVersion version 12 16 16) bytes := by
  cases version <;>
  · simp only [Scaler.read, u32If, pure_bind, ne_eq, reduceCtorEq,
      not_true_eq_false, not_false_eq_true, decide_true, decide_false, if_true, if_false,
      Bool.false_eq_true, consumes_u32_bind, consumes_bytes_bind, consumes_pure,
      List.length_drop, List.drop_drop, List.drop_eq_nil_iff, perVersion, wordAt_drop,
      toNat_ofNat_wordAt, Nat.reduceAdd]
    omega

theorem TextList.consumes_read {version : FormatVersion} {kind : RecordKind} {bytes : Bytes} :
    Consumes (TextList.read version kind) bytes ↔
      perVersion version 12 16 20 ≤ bytes.length ∧ ∃ strings : List Bytes,
        bytes.drop (perVersion version 12 16 20) = strings.flatMap (fun s => s ++ [0]) ∧
        strings.length = wordAt 8 bytes ∧ ∀ s ∈ strings, 0 ∉ s := by
  cases version <;>
  · simp only [TextList.read, u32If, pure_bind, ne_eq, reduceCtorEq,
      not_true_eq_false, not_false_eq_true, decide_true, decide_false, if_true, if_false,
      Bool.false_eq_true, consumes_u32_bind, consumes_bind_pure, consumes_strings,
      List.length_drop, List.drop_drop, perVersion, wordAt_drop,
      toNat_ofNat_wordAt, Nat.reduceAdd, ← and_assoc]
    refine and_congr ?_ Iff.rfl
    omega

theorem EventCount.consumes_read {version : FormatVersion} {bytes : Bytes} :
    Consumes (EventCount.read version) bytes ↔ bytes.length = perVersion version 16 20 24 := by
  cases version <;>
  · simp only [EventCount.read, u32If, pure_bind, ne_eq, reduceCtorEq,
      not_true_eq_false, not_false_eq_true, decide_true, decide_false, if_true, if_false,
      Bool.false_eq_true, consumes_u32_bind, consumes_u64_bind, consumes_pure,
      List.length_drop, List.drop_drop, List.drop_eq_nil_iff, perVersion]
    omega

theorem GlomParameters.consumes_read {bytes : Bytes} :
    Consumes GlomParameters.read bytes ↔ bytes.length = 12 := by
  simp only [GlomParameters.read, consumes_u64_bind, consumes_u16_bind, consumes_pure,
    List.length_drop, List.drop_drop, List.drop_eq_nil_iff]
  omega

theorem DataFormat.consumes_read {bytes : Bytes} :
    Consumes DataFormat.read bytes ↔ bytes.length = 4 := by
  simp only [DataFormat.read, consumes_u16_bind, consumes_pure, List.length_drop, List.drop_drop,
    List.drop_eq_nil_iff]
  omega

theorem Fragment.consumes_readHeader_bind {β : Type} {f : BodyHeader → Reading β} {bytes : Bytes}
    (hf : ∀ h left, Consumes (f h) left) :
    Consumes (Fragment.readHeader >>= f) bytes ↔
      20 ≤ bytes.length ∧ wordAt 12 bytes = bytes.length - 20 := by
  simp only [Fragment.readHeader, bind_assoc, consumes_u64_bind, consumes_u32_bind,
    consumes_remaining_bind, consumes_check_bind, hf, List.length_drop, List.drop_drop,
    wordAt_drop, toNat_ofNat_wordAt, and_true, Nat.reduceAdd]
  omega

namespace Record

variable {version : FormatVersion} {header : Option BodyHeader}
  {child : Option (Bytes → Except RecordError Record)} {kind : RecordKind} {bytes : Bytes}

theorem consumes_readText :
    Consumes (TextList.read version kind) bytes ↔
      ∃ (fixed : Bytes) (strings : List Bytes),
        bytes = fixed ++ strings.flatMap (fun s => s ++ [0]) ∧
        fixed.length = perVersion version 12 16 20 ∧
        strings.length = wordAt 8 bytes ∧ ∀ s ∈ strings, 0 ∉ s := by
  rw [TextList.consumes_read]
  constructor
  · rintro ⟨hlen, strings, hdrop, hcount, hzero⟩
    refine ⟨bytes.take (perVersion version 12 16 20), strings, ?_, ?_, hcount, hzero⟩
    · rw [← hdrop, List.take_append_drop]
    · exact List.length_take_of_le hlen
  · rintro ⟨fixed, strings, hbytes, hlen, hcount, hzero⟩
    refine ⟨?_, strings, ?_, hcount, hzero⟩
    · rw [hbytes, List.length_append, hlen]
      omega
    · rw [hbytes, ← hlen, List.drop_left]

theorem consumes_readBody_plain (hkind : ∀ base, kind ≠ .composite base) :
    Consumes (readBody version header child kind) bytes ↔ PlainPayload version kind bytes := by
  cases kind with
  | composite base => exact absurd rfl (hkind base)
  | beginRun | endRun | pauseRun | resumeRun =>
    simp only [readBody, consumes_bind_pure, StateChange.consumes_read, PlainPayload]
  | scaler => simp only [readBody, consumes_bind_pure, Scaler.consumes_read, PlainPayload]
  | packetTypes | monitoredVariables =>
    simp only [readBody, consumes_bind_pure, consumes_readText, PlainPayload]
  | physicsEvent | unknown =>
    simp only [readBody, consumes_rest_bind, consumes_pure, PlainPayload]
  | physicsEventCount =>
    simp only [readBody, consumes_bind_pure, EventCount.consumes_read, PlainPayload]
  | fragment | unknownPayloadFragment =>
    by_cases hversion : version = .v10
    · simp only [readBody, hversion, if_true, bind_map_left, PlainPayload, forall_const]
      refine Fragment.consumes_readHeader_bind fun h left => ?_
      rw [consumes_rest_bind, consumes_pure]
    · simp only [readBody, hversion, if_false, pure_bind, consumes_rest_bind, consumes_pure,
        PlainPayload, false_implies]
  | glomParameters =>
    simp only [readBody, consumes_bind_pure, GlomParameters.consumes_read, PlainPayload]
  | dataFormat => simp only [readBody, consumes_bind_pure, DataFormat.consumes_read, PlainPayload]
  | abnormalEnd => simp only [readBody, consumes_pure, PlainPayload]

/-- Blocks can be read one by one exactly when there is a list of what they are read as. -/
theorem exists_forall₂_iff {one : Bytes → Except RecordError Record} {blocks : List Bytes} :
    (∃ rs, List.Forall₂ (fun block r => IsBlock block ∧ one block = .ok r) blocks rs) ↔
      ∀ block ∈ blocks, IsBlock block ∧ ∃ r, one block = .ok r := by
  constructor
  · rintro ⟨rs, hall⟩
    induction hall with
    | nil => simp
    | cons hfirst _ ih =>
      intro block hblock
      rcases List.mem_cons.1 hblock with rfl | hblock
      · exact ⟨hfirst.1, _, hfirst.2⟩
      · exact ih block hblock
  · intro h
    induction blocks with
    | nil => exact ⟨[], .nil⟩
    | cons block blocks ih =>
      obtain ⟨hblock, r, hr⟩ := h block (by simp)
      obtain ⟨rs, hrs⟩ := ih fun b hb => h b (by simp [hb])
      exact ⟨r :: rs, .cons ⟨hblock, hr⟩ hrs⟩

theorem consumes_readBody_composite {base : UInt32} :
    Consumes (readBody version header child (.composite base)) bytes ↔
      ∃ blocks : List Bytes, bytes = blocks.flatten ∧ (∀ block ∈ blocks, IsBlock block) ∧
        match child with
        | some one => ∀ block ∈ blocks, ∃ r, one block = .ok r
        | none => blocks = [] := by
  simp only [readBody, consumes_bind_pure]
  simp only [Consumes, readChildren_eq_ok, true_and]
  cases child with
  | none =>
    constructor
    · rintro ⟨_, rfl, -⟩
      exact ⟨[], rfl, by simp, rfl⟩
    · rintro ⟨_, rfl, -, rfl⟩
      exact ⟨[], rfl, rfl⟩
  | some one =>
    simp only [readAll_eq_ok]
    constructor
    · rintro ⟨children, blocks, rfl, hall⟩
      have hboth := exists_forall₂_iff.1 ⟨children, hall⟩
      exact ⟨blocks, rfl, fun b hb => (hboth b hb).1, fun b hb => (hboth b hb).2⟩
    · rintro ⟨blocks, rfl, hblocks, hone⟩
      obtain ⟨children, hall⟩ := exists_forall₂_iff.2 fun b hb => ⟨hblocks b hb, hone b hb⟩
      exact ⟨children, blocks, rfl, hall⟩

/-- Whether a payload can be read has nothing to do with the header in front of it. -/
theorem consumes_readBody_header (header header' : Option BodyHeader) :
    Consumes (readBody version header child kind) bytes ↔
      Consumes (readBody version header' child kind) bytes := by
  by_cases h : ∃ base, kind = .composite base
  · obtain ⟨base, rfl⟩ := h
    rw [consumes_readBody_composite, consumes_readBody_composite]
  · have hplain : ∀ base, kind ≠ .composite base := fun base hbase => h ⟨base, hbase⟩
    rw [consumes_readBody_plain hplain, consumes_readBody_plain hplain]

theorem consumes_readFields :
    Consumes (readFields version child) bytes ↔
      ∃ (typeTag : UInt32) (front payload : Bytes),
        bytes = u32 typeTag ++ (front ++ payload) ∧ HeaderSection version front ∧
        Consumes (readBody version none child (RecordKind.ofTag version typeTag)) payload := by
  simp only [Consumes, readFields_eq_ok]
  constructor
  · rintro ⟨r, typeTag, front, payload, extension, header, header', body, rfl, hsection, hbody, -⟩
    refine ⟨typeTag, front, payload, rfl, ?_, ?_⟩
    · exact BodyHeader.consumes_read.1
        ⟨(header, extension), BodyHeader.read_eq_ok.2 ⟨front, by simp, hsection⟩⟩
    · exact (consumes_readBody_header none header).2 ⟨(header', body), hbody⟩
  · rintro ⟨typeTag, front, payload, rfl, hfront, hpayload⟩
    obtain ⟨⟨header, extension⟩, hread⟩ := BodyHeader.consumes_read.2 hfront
    obtain ⟨_, hfronts, hsection⟩ := BodyHeader.read_eq_ok.1 hread
    rw [List.append_nil] at hfronts
    subst hfronts
    obtain ⟨⟨header', body⟩, hbody⟩ := (consumes_readBody_header none header).1 hpayload
    exact ⟨_, typeTag, front, payload, extension, header, header', body, rfl, hsection, hbody, rfl⟩

theorem exists_decodeWire_iff {depth : Nat} {wire : Bytes} :
    (∃ q, decodeWire version depth wire = .ok q) ↔
      Consumes (readFields version (childReader version depth)) (wire.drop 4) := by
  simp only [decodeWire_eq_ok, Consumes]
  constructor
  · rintro ⟨_, r, hr, -⟩
    exact ⟨r, hr⟩
  · rintro ⟨r, hr⟩
    exact ⟨_, r, hr, rfl⟩

theorem isBlock_iff {block : Bytes} :
    IsBlock block ↔ 8 ≤ wordAt 0 block ∧ wordAt 0 block = block.length := by
  constructor
  · rintro ⟨hheader, hsize⟩
    exact ⟨hsize ▸ hheader, hsize⟩
  · rintro ⟨hword, hsize⟩
    exact ⟨hsize ▸ hword, hsize⟩

/-- One level of the grammar, when the children are read exactly when they are in it. -/
theorem consumes_readFields_iff_isRecord {depth : Nat} (hdeep : child = none ↔ 32 ≤ depth)
    (hchild : ∀ one, child = some one →
      ∀ block, (∃ r, one block = .ok r) ↔ IsRecord version (depth + 1) block)
    (wire : Bytes) :
    Consumes (readFields version child) (wire.drop 4) ↔ IsRecord version depth wire := by
  rw [consumes_readFields]
  constructor
  · rintro ⟨typeTag, front, payload, hwire, hfront, hpayload⟩
    -- The type word is there, so all of the size word is.
    have hsize : (wire.take 4).length = 4 := by
      have hlen := congrArg List.length hwire
      simp only [List.length_drop, List.length_append, length_u32] at hlen
      exact List.length_take_of_le (by omega)
    have hsplit : wire = wire.take 4 ++ u32 typeTag ++ front ++ payload := by
      rw [List.append_assoc, List.append_assoc, ← hwire, List.take_append_drop]
    by_cases hkind : ∃ base, RecordKind.ofTag version typeTag = .composite base
    · obtain ⟨base, hbase⟩ := hkind
      rw [hbase, consumes_readBody_composite] at hpayload
      obtain ⟨blocks, rfl, hblocks, hread⟩ := hpayload
      rw [hsplit]
      refine .composite _ typeTag base front blocks hsize hfront (RecordKind.means_iff.2 hbase)
        (fun b hb => isBlock_iff.1 (hblocks b hb)) ?_ ?_
      · intro b hb
        cases child with
        | none => simp [hread] at hb
        | some one => exact (hchild one rfl b).1 (hread b hb)
      · intro hge
        obtain rfl := hdeep.2 hge
        simp [hread]
    · have hplain : ∀ base, RecordKind.ofTag version typeTag ≠ .composite base :=
        fun base hbase => hkind ⟨base, hbase⟩
      rw [consumes_readBody_plain hplain] at hpayload
      rw [hsplit]
      exact .plain _ typeTag _ front payload hsize hfront (RecordKind.means_ofTag ..) hpayload
  · intro h
    cases h with
    | plain size typeTag kind front payload hsize hfront hmeans hpayload =>
      refine ⟨typeTag, front, payload, ?_, hfront, ?_⟩
      · rw [List.append_assoc, List.append_assoc, ← hsize, List.drop_left]
      · rw [RecordKind.means_iff.1 hmeans]
        refine (consumes_readBody_plain ?_).2 hpayload
        intro base hbase
        rw [hbase] at hpayload
        exact hpayload
    | composite size typeTag base front children hsize hfront hbase hblocks hrecords hempty =>
      refine ⟨typeTag, front, children.flatten, ?_, hfront, ?_⟩
      · rw [List.append_assoc, List.append_assoc, ← hsize, List.drop_left]
      · rw [RecordKind.means_iff.1 hbase, consumes_readBody_composite]
        refine ⟨children, rfl, fun b hb => isBlock_iff.2 (hblocks b hb), ?_⟩
        cases child with
        | some one => exact fun b hb => (hchild one rfl b).2 (hrecords b hb)
        | none =>
          exact flatten_injective (fun b hb => isBlock_iff.2 (hblocks b hb)) (by simp)
            (hempty (hdeep.1 rfl))

/-- With `depth` levels to go, a block is read exactly when it is in the grammar at the level
    where it stands. -/
theorem exists_decodeWire_iff_isRecord (version : FormatVersion) (depth : Nat)
    (hdepth : depth ≤ maxDepth) (wire : Bytes) :
    (∃ q, decodeWire version depth wire = .ok q) ↔ IsRecord version (maxDepth - depth) wire := by
  rw [exists_decodeWire_iff]
  induction depth generalizing wire with
  | zero =>
    exact consumes_readFields_iff_isRecord (by simp [childReader, maxDepth])
      (by simp [childReader]) wire
  | succ depth ih =>
    refine consumes_readFields_iff_isRecord ?_ ?_ wire
    · simp only [childReader, reduceCtorEq, false_iff]
      unfold maxDepth at hdepth ⊢
      omega
    · intro one hone block
      cases hone
      rw [exists_decodeWire_iff, ih (by omega)]
      have hlevel : maxDepth - (depth + 1) + 1 = maxDepth - depth := by omega
      rw [hlevel]

/-- The reader accepts exactly the strings that begin with a record of the grammar, at no
    depth, and takes as many bytes as its size word says. -/
theorem decodePrefix_accepts_iff (version : FormatVersion) (bytes : Bytes) :
    ((∃ r used, decodePrefix version bytes = .ok (r, used)) ↔
      8 ≤ wordAt 0 bytes ∧ wordAt 0 bytes ≤ bytes.length ∧
        IsRecord version 0 (bytes.take (wordAt 0 bytes))) ∧
    ∀ r used, decodePrefix version bytes = .ok (r, used) → used = wordAt 0 bytes := by
  simp only [decodePrefix_eq_ok, append_isBlock_iff]
  constructor
  · constructor
    · rintro ⟨r, _, block, rest, ⟨hheader, hle, rfl, -⟩, hread, -⟩
      have hrecord :=
        (exists_decodeWire_iff_isRecord version maxDepth (le_refl _) _).1 ⟨r, hread⟩
      exact ⟨hheader, hle, hrecord⟩
    · rintro ⟨hheader, hle, hrecord⟩
      obtain ⟨r, hread⟩ :=
        (exists_decodeWire_iff_isRecord version maxDepth (le_refl _) _).2 hrecord
      exact ⟨r, _, _, _, ⟨hheader, hle, rfl, rfl⟩, hread, rfl⟩
  · rintro r used ⟨block, rest, ⟨-, hle, rfl, -⟩, -, rfl⟩
    exact List.length_take_of_le hle

end Record

end DaqStream
