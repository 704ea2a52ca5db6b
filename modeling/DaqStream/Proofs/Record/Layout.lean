import DaqStream.Proofs.Record.Reading
import DaqStream.Record.Decode

/-!
# How payloads lie in a record

For every kind of payload, the reader succeeds exactly on one layout of bytes, and what it
gives is determined by that layout. Where reading forgets something (the bytes after a
title, which non-zero word a flag was) the layout has it as an argument of its own; where
it forgets nothing the layout is the written payload.
-/

namespace DaqStream

open LittleEndian Reading

/-- What can be read from a stream of a generation: the first has no divisors, and only the
    last has producers. -/
structure FormatVersion.Carries (version : FormatVersion) (divisor producerId : UInt32) : Prop where
  divisor : version = .v10 → divisor = 1
  producerId : version ≠ .v12 → producerId = 0

theorem length_sinceV11 (version : FormatVersion) (bytes : Bytes) :
    (sinceV11 version bytes).length = if version = .v10 then 0 else bytes.length := by
  unfold sinceV11
  split <;> rfl

theorem length_onlyV12 (version : FormatVersion) (bytes : Bytes) :
    (onlyV12 version bytes).length = if version = .v12 then bytes.length else 0 := by
  unfold onlyV12
  split <;> rfl

namespace Reading

theorem u32If_sinceV11_eq_ok {version : FormatVersion} {absent x : UInt32} {field : String}
    {left rest : Bytes} :
    u32If (decide (version ≠ .v10)) absent field left = .ok (x, rest) ↔
      left = sinceV11 version (LittleEndian.u32 x) ++ rest ∧ (version = .v10 → x = absent) := by
  unfold u32If sinceV11
  by_cases h : version = .v10
  · simp only [h, ne_eq, not_true_eq_false, decide_false, if_false, if_true, pure_eq_ok,
      Bool.false_eq_true, List.nil_append, forall_const]
    rw [and_comm, eq_comm (a := absent)]
  · simp [h, u32_eq_ok]

theorem u32If_onlyV12_eq_ok {version : FormatVersion} {absent x : UInt32} {field : String}
    {left rest : Bytes} :
    u32If (decide (version = .v12)) absent field left = .ok (x, rest) ↔
      left = onlyV12 version (LittleEndian.u32 x) ++ rest ∧ (version ≠ .v12 → x = absent) := by
  unfold u32If onlyV12
  by_cases h : version = .v12
  · simp [h, u32_eq_ok]
  · simp only [h, ne_eq, not_false_eq_true, decide_false, if_false, pure_eq_ok,
      Bool.false_eq_true, List.nil_append, forall_const]
    rw [and_comm, eq_comm (a := absent)]

end Reading

namespace BodyHeader

/-- The bytes of a body-header section that is read as `header` with `extension`. -/
inductive Section (version : FormatVersion) : Bytes → Option BodyHeader → Bytes → Prop
  /-- The first generation has none. -/
  | missing : version.hasHeaderWord = false → Section version [] none []
  /-- A size word of zero, or of its own size. -/
  | empty (word : UInt32) : version.hasHeaderWord = true → word = 0 ∨ word = 4 →
      Section version (LittleEndian.u32 word) none []
  /-- A header whose size word counts the whole section. -/
  | full (h : BodyHeader) (extension : Bytes) : version.hasHeaderWord = true →
      wireSize + extension.length < 2 ^ 32 →
      Section version (LittleEndian.u32 (UInt32.ofNat (wireSize + extension.length)) ++
        LittleEndian.u64 h.timestamp ++ LittleEndian.u32 h.sourceId ++
        LittleEndian.u32 h.barrierType ++ extension) (some h) extension

theorem Section.length_eq {version : FormatVersion} {bytes extension : Bytes}
    {header : Option BodyHeader} (h : Section version bytes header extension) :
    bytes.length = sectionSize version header extension := by
  cases h with
  | missing hword => simp [sectionSize, hword]
  | empty word hword _ => simp [sectionSize, hword]
  | full h extension hword _ =>
    simp only [sectionSize, hword, if_true, List.length_append, LittleEndian.length_u32,
      LittleEndian.length_u64, wireSize]

theorem read_eq_ok {version : FormatVersion} {left rest extension : Bytes}
    {header : Option BodyHeader} :
    BodyHeader.read version left = .ok ((header, extension), rest) ↔
      ∃ bytes, left = bytes ++ rest ∧ Section version bytes header extension := by
  unfold BodyHeader.read
  simp only [ite_eq_ok, bind_eq_ok, u32_eq_ok, u64_eq_ok, bytes_eq_ok, pure_eq_ok, throw_ne_ok,
    Prod.mk.injEq, and_false, or_false]
  constructor
  · rintro (⟨hword, word, _, rfl, h⟩ | ⟨hword, ⟨rfl, rfl⟩, rfl⟩)
    · rcases h with ⟨hempty, ⟨rfl, rfl⟩, rfl⟩ | ⟨hempty, hfull, h⟩
      · exact ⟨_, rfl, .empty word hword hempty⟩
      · obtain ⟨timestamp, _, rfl, sourceId, _, rfl, barrierType, _, rfl, ext, _, ⟨rfl, hext⟩,
          ⟨rfl, rfl⟩, rfl⟩ := h
        have hlt : word.toNat < 2 ^ 32 := word.toNat_lt
        have hsize : wireSize + ext.length = word.toNat := by omega
        have hfullSection := @Section.full version ⟨timestamp, sourceId, barrierType⟩
          ext hword (by omega)
        rw [hsize, UInt32.ofNat_toNat] at hfullSection
        exact ⟨_, by simp, hfullSection⟩
    · exact ⟨[], rfl, .missing (by simpa using hword)⟩
  · rintro ⟨bytes, rfl, h⟩
    cases h with
    | missing hword => exact .inr ⟨by simp [hword], ⟨rfl, rfl⟩, rfl⟩
    | empty word hword hempty =>
      exact .inl ⟨hword, word, rest, rfl, .inl ⟨hempty, ⟨rfl, rfl⟩, rfl⟩⟩
    | full h _ hword hlt =>
      have hsize : (UInt32.ofNat (wireSize + extension.length)).toNat =
          wireSize + extension.length := UInt32.toNat_ofNat_of_lt' hlt
      have hpos : ¬ (UInt32.ofNat (wireSize + extension.length) = 0 ∨
          UInt32.ofNat (wireSize + extension.length) = 4) := by
        have hge : 20 ≤ (UInt32.ofNat (wireSize + extension.length)).toNat := by
          rw [hsize, wireSize]
          omega
        rintro (hzero | hfour)
        · rw [hzero] at hge
          simp at hge
        · rw [hfour] at hge
          simp at hge
      refine .inl ⟨hword, _, _, by simp only [List.append_assoc]; rfl, .inr ⟨hpos, ?_, ?_⟩⟩
      · rw [hsize]
        omega
      · exact ⟨_, _, rfl, _, _, rfl, _, _, rfl, _, _, ⟨rfl, by rw [hsize]; omega⟩, ⟨rfl, rfl⟩, rfl⟩

end BodyHeader

@[simp] theorem LittleEndian.length_flatMap_u32 (values : List UInt32) :
    (values.flatMap u32).length = 4 * values.length := by
  induction values with
  | nil => rfl
  | cons value values ih =>
    rw [List.flatMap_cons, List.length_append, length_u32, ih, List.length_cons]
    omega

namespace Bytes

theorem words_flatMap_u32 (values : List UInt32) :
    words (values.flatMap LittleEndian.u32) = values := by
  induction values with
  | nil => rfl
  | cons value values ih =>
    have hlen := LittleEndian.length_u32 value
    have hval := LittleEndian.toNat_u32 value
    rw [List.flatMap_cons]
    match hbytes : LittleEndian.u32 value, hlen with
    | [a, b, c, d], _ =>
      rw [hbytes] at hval
      simp only [List.cons_append, List.nil_append, words, ih, hval, UInt32.ofNat_toNat]

theorem flatMap_u32_words (count : Nat) (bytes : Bytes) (h : bytes.length = 4 * count) :
    (words bytes).flatMap LittleEndian.u32 = bytes ∧ (words bytes).length = count := by
  induction count generalizing bytes with
  | zero =>
    obtain rfl := List.eq_nil_of_length_eq_zero h
    simp [words]
  | succ count ih =>
    match bytes, h with
    | a :: b :: c :: d :: rest, h =>
      obtain ⟨hrest, hcount⟩ := ih rest (by simp only [List.length_cons] at h; omega)
      simp only [words, List.flatMap_cons, hrest, List.length_cons, hcount, and_true]
      rw [LittleEndian.u32_toNat rfl]
      rfl

end Bytes

namespace StateChange

/-- A run transition around the bytes of its title field. -/
def layout (version : FormatVersion) (s : StateChange) (field : Bytes) : Bytes :=
  u32 s.runNumber ++ u32 s.timeOffset ++ u32 s.unixTime ++ sinceV11 version (u32 s.offsetDivisor) ++
    field ++ onlyV12 version (u32 s.producerId)

/-- The title that is read from the bytes of a title field. -/
def titleOf (field : Bytes) : Bytes := (field.takeWhile (· ≠ 0)).take maxTitle

theorem payload_eq_layout (version : FormatVersion) (s : StateChange) :
    s.payload version = s.layout version (titleBytes s.title) := rfl

theorem length_titleBytes (title : Bytes) : (titleBytes title).length = titleField := by
  simp only [titleBytes, List.length_append, List.length_replicate, List.length_take, maxTitle,
    titleField]
  omega

theorem length_layout (version : FormatVersion) (s : StateChange) (field : Bytes)
    (h : field.length = titleField) :
    (s.layout version field).length = (Body.stateChange s).payloadSize version := by
  cases version <;>
    simp [layout, length_sinceV11, length_onlyV12, h, titleField, Body.payloadSize]

theorem read_eq_ok {version : FormatVersion} {kind : RecordKind} {left rest : Bytes}
    {s : StateChange} :
    StateChange.read version kind left = .ok (s, rest) ↔
      ∃ field : Bytes, left = s.layout version field ++ rest ∧ field.length = titleField ∧
        s.kind = kind ∧ s.title = titleOf field ∧
        version.Carries s.offsetDivisor s.producerId := by
  simp only [StateChange.read, readTitle, bind_eq_ok, u32_eq_ok, u32If_sinceV11_eq_ok,
    u32If_onlyV12_eq_ok, bytes_eq_ok, pure_eq_ok, layout, List.append_assoc]
  constructor
  · rintro ⟨runNumber, _, rfl, timeOffset, _, rfl, unixTime, _, rfl, divisor, _, ⟨rfl, hdivisor⟩,
      title, _, ⟨field, _, ⟨rfl, hlen⟩, rfl, rfl⟩, producerId, _, ⟨rfl, hproducer⟩, rfl, rfl⟩
    exact ⟨field, rfl, hlen, rfl, rfl, hdivisor, hproducer⟩
  · rintro ⟨field, rfl, hlen, rfl, htitle, hdivisor, hproducer⟩
    exact ⟨_, _, rfl, _, _, rfl, _, _, rfl, _, _, ⟨rfl, hdivisor⟩, _, _,
      ⟨field, _, ⟨rfl, hlen⟩, htitle.symm, rfl⟩, _, _, ⟨rfl, hproducer⟩, rfl, rfl⟩

end StateChange

namespace Scaler

/-- A scaler readout around the word that says whether it is incremental. -/
def layout (version : FormatVersion) (s : Scaler) (flag : UInt32) : Bytes :=
  u32 s.intervalStart ++ u32 s.intervalEnd ++ u32 s.unixTime ++
    sinceV11 version (u32 s.intervalDivisor) ++ u32 (UInt32.ofNat s.values.length) ++
    sinceV11 version (u32 flag) ++ onlyV12 version (u32 s.producerId) ++ s.values.flatMap u32

theorem payload_eq_layout (version : FormatVersion) (s : Scaler) :
    s.payload version = s.layout version (if s.isIncremental then 1 else 0) := rfl

theorem length_layout (version : FormatVersion) (s : Scaler) (flag : UInt32) :
    (s.layout version flag).length = (Body.scaler s).payloadSize version := by
  cases version <;>
    simp only [layout, List.length_append, length_sinceV11, length_onlyV12, length_u32,
      length_flatMap_u32, Body.payloadSize, reduceCtorEq, if_true, if_false]

theorem read_eq_ok {version : FormatVersion} {left rest : Bytes} {s : Scaler} :
    Scaler.read version left = .ok (s, rest) ↔
      ∃ flag : UInt32, left = s.layout version flag ++ rest ∧ s.values.length < 2 ^ 32 ∧
        s.isIncremental = decide (flag ≠ 0) ∧ (version = .v10 → flag = 1) ∧
        version.Carries s.intervalDivisor s.producerId := by
  simp only [Scaler.read, bind_eq_ok, u32_eq_ok, u32If_sinceV11_eq_ok, u32If_onlyV12_eq_ok,
    bytes_eq_ok, pure_eq_ok, layout, List.append_assoc]
  constructor
  · rintro ⟨start, _, rfl, stop, _, rfl, unixTime, _, rfl, divisor, _, ⟨rfl, hdivisor⟩,
      count, _, rfl, flag, _, ⟨rfl, hflag⟩, producerId, _, ⟨rfl, hproducer⟩,
      bytes, _, ⟨rfl, hlen⟩, rfl, rfl⟩
    obtain ⟨hwords, hcount⟩ := Bytes.flatMap_u32_words count.toNat bytes hlen
    refine ⟨flag, ?_, ?_, rfl, hflag, hdivisor, hproducer⟩
    · rw [hwords, hcount, UInt32.ofNat_toNat]
    · rw [hcount]
      exact count.toNat_lt
  · rintro ⟨flag, rfl, hlt, hincremental, hflag, hdivisor, hproducer⟩
    have hcount : (UInt32.ofNat s.values.length).toNat = s.values.length :=
      UInt32.toNat_ofNat_of_lt' hlt
    refine ⟨_, _, rfl, _, _, rfl, _, _, rfl, _, _, ⟨rfl, hdivisor⟩, _, _, rfl, flag, _,
      ⟨rfl, hflag⟩, _, _, ⟨rfl, hproducer⟩, _, _, ⟨rfl, ?_⟩, ?_, rfl⟩
    · rw [hcount, length_flatMap_u32]
    · rw [Bytes.words_flatMap_u32, ← hincremental]

end Scaler

namespace TextList

theorem length_flatMap_strings (strings : List Bytes) :
    (strings.flatMap fun s => s ++ [0]).length = stringsSize strings := by
  induction strings with
  | nil => rfl
  | cons s strings ih =>
    rw [List.flatMap_cons, List.length_append, ih, stringsSize, List.length_append]
    rfl

theorem length_strings_le (strings : List Bytes) : strings.length ≤ stringsSize strings := by
  induction strings with
  | nil => simp
  | cons s strings ih =>
    rw [List.length_cons, stringsSize]
    omega

theorem length_payload (version : FormatVersion) (t : TextList) :
    (t.payload version).length = (Body.text t).payloadSize version := by
  have hstrings := length_flatMap_strings t.strings
  cases version <;>
    simp only [payload, List.length_append, length_sinceV11, length_onlyV12, length_u32, hstrings,
      Body.payloadSize, reduceCtorEq, if_true, if_false]

theorem read_eq_ok {version : FormatVersion} {kind : RecordKind} {left rest : Bytes}
    {t : TextList} :
    TextList.read version kind left = .ok (t, rest) ↔
      left = t.payload version ++ rest ∧ t.kind = kind ∧ t.strings.length < 2 ^ 32 ∧
        (∀ s ∈ t.strings, 0 ∉ s) ∧ version.Carries t.offsetDivisor t.producerId := by
  simp only [TextList.read, bind_eq_ok, u32_eq_ok, u32If_sinceV11_eq_ok, u32If_onlyV12_eq_ok,
    strings_eq_ok, pure_eq_ok, payload, List.append_assoc]
  constructor
  · rintro ⟨timeOffset, _, rfl, unixTime, _, rfl, count, _, rfl, divisor, _, ⟨rfl, hdivisor⟩,
      producerId, _, ⟨rfl, hproducer⟩, strings, _, ⟨rfl, hlen, hzero⟩, rfl, rfl⟩
    refine ⟨?_, rfl, ?_, hzero, hdivisor, hproducer⟩
    · rw [hlen, UInt32.ofNat_toNat]
    · rw [hlen]
      exact count.toNat_lt
  · rintro ⟨rfl, rfl, hlt, hzero, hdivisor, hproducer⟩
    exact ⟨_, _, rfl, _, _, rfl, _, _, rfl, _, _, ⟨rfl, hdivisor⟩, _, _, ⟨rfl, hproducer⟩, _, _,
      ⟨rfl, (UInt32.toNat_ofNat_of_lt' hlt).symm, hzero⟩, rfl, rfl⟩

end TextList

namespace EventCount

theorem length_payload (version : FormatVersion) (c : EventCount) :
    (c.payload version).length = (Body.physicsEventCount c).payloadSize version := by
  cases version <;> simp [payload, length_sinceV11, length_onlyV12, Body.payloadSize]

theorem read_eq_ok {version : FormatVersion} {left rest : Bytes} {c : EventCount} :
    EventCount.read version left = .ok (c, rest) ↔
      left = c.payload version ++ rest ∧ version.Carries c.offsetDivisor c.producerId := by
  simp only [EventCount.read, bind_eq_ok, u32_eq_ok, u64_eq_ok, u32If_sinceV11_eq_ok,
    u32If_onlyV12_eq_ok, pure_eq_ok, payload, List.append_assoc]
  constructor
  · rintro ⟨timeOffset, _, rfl, divisor, _, ⟨rfl, hdivisor⟩, unixTime, _, rfl, eventCount, _, rfl,
      producerId, _, ⟨rfl, hproducer⟩, rfl, rfl⟩
    exact ⟨rfl, hdivisor, hproducer⟩
  · rintro ⟨rfl, hdivisor, hproducer⟩
    exact ⟨_, _, rfl, _, _, ⟨rfl, hdivisor⟩, _, _, rfl, _, _, rfl, _, _, ⟨rfl, hproducer⟩, rfl, rfl⟩

end EventCount

namespace Fragment

/-- The header in front of the payload is read exactly when its size word is the length of
    what follows. -/
theorem readHeader_eq_ok {left rest : Bytes} {h : BodyHeader} :
    readHeader left = .ok (h, rest) ↔
      left = payloadBytes .v10 (some h) ⟨rest, false⟩ ∧ rest.length < 2 ^ 32 := by
  simp only [readHeader, bind_eq_ok, ite_eq_ok, u32_eq_ok, u64_eq_ok, remaining_eq_ok, pure_eq_ok,
    throw_ne_ok, and_false, or_false, payloadBytes, if_true, Option.getD_some, List.append_assoc]
  constructor
  · rintro ⟨timestamp, _, rfl, sourceId, _, rfl, size, _, rfl, barrierType, _, rfl,
      available, _, ⟨rfl, rfl⟩, hsize, rfl, rfl⟩
    refine ⟨?_, ?_⟩
    · rw [← hsize, UInt32.ofNat_toNat]
    · rw [← hsize]
      exact size.toNat_lt
  · rintro ⟨rfl, hlt⟩
    exact ⟨_, _, rfl, _, _, rfl, _, _, rfl, _, _, rfl, _, _, ⟨rfl, rfl⟩,
      UInt32.toNat_ofNat_of_lt' hlt, rfl, rfl⟩

end Fragment

namespace TimestampPolicy

theorem code_ofCode (code : UInt16) : (ofCode code).code = code := by
  unfold ofCode
  split
  · rename_i h; rw [h, TimestampPolicy.code]
  · split
    · rename_i h; rw [h, TimestampPolicy.code]
    · split
      · rename_i h; rw [h, TimestampPolicy.code]
      · rfl

end TimestampPolicy

namespace GlomParameters

/-- Glom parameters around the word that says whether fragments are joined. -/
def layout (g : GlomParameters) (flag : UInt16) : Bytes :=
  u64 g.coincidenceTicks ++ u16 flag ++ u16 g.timestampPolicy.code

theorem payload_eq_layout (g : GlomParameters) :
    g.payload = g.layout (if g.isBuilding then 1 else 0) := rfl

theorem length_layout (g : GlomParameters) (flag : UInt16) : (g.layout flag).length = 12 := by
  simp [layout]

theorem read_eq_ok {left rest : Bytes} {g : GlomParameters} :
    GlomParameters.read left = .ok (g, rest) ↔
      ∃ flag : UInt16, left = g.layout flag ++ rest ∧ g.isBuilding = decide (flag ≠ 0) ∧
        TimestampPolicy.ofCode g.timestampPolicy.code = g.timestampPolicy := by
  simp only [GlomParameters.read, bind_eq_ok, u16_eq_ok, u64_eq_ok, pure_eq_ok, layout,
    List.append_assoc]
  constructor
  · rintro ⟨ticks, _, rfl, flag, _, rfl, policy, _, rfl, rfl, rfl⟩
    refine ⟨flag, ?_, rfl, ?_⟩
    · rw [TimestampPolicy.code_ofCode]
    · rw [TimestampPolicy.code_ofCode]
  · rintro ⟨flag, rfl, hbuilding, hpolicy⟩
    refine ⟨_, _, rfl, _, _, rfl, _, _, rfl, ?_, rfl⟩
    rw [hpolicy, ← hbuilding]

end GlomParameters

namespace DataFormat

theorem length_payload (f : DataFormat) : f.payload.length = 4 := by
  simp [payload]

theorem read_eq_ok {left rest : Bytes} {f : DataFormat} :
    DataFormat.read left = .ok (f, rest) ↔ left = f.payload ++ rest := by
  simp only [DataFormat.read, bind_eq_ok, u16_eq_ok, pure_eq_ok, payload, List.append_assoc]
  constructor
  · rintro ⟨major, _, rfl, minor, _, rfl, rfl, rfl⟩
    rfl
  · rintro rfl
    exact ⟨_, _, rfl, _, _, rfl, rfl, rfl⟩

end DataFormat

end DaqStream
