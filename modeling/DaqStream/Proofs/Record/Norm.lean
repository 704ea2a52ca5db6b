import DaqStream.Proofs.Record.Grammar

/-!
# What a generation can carry

`Record.norm` is what is left of a record when it has been written and read again: at every
level that was made in memory it changes what the layout of the generation has no room for,
and nothing else. A payload that was written is read as its normal form; only strings with
zero bytes in them cannot be read (`TextList.read_payload_iff`).
-/

namespace DaqStream

open LittleEndian Reading WireGrammar

namespace FormatVersion

/-- The divisor that is read where one was written. -/
def divisor (version : FormatVersion) (written : UInt32) : UInt32 :=
  if version = .v10 then 1 else written

/-- The producer that is read where one was written. -/
def producerId (version : FormatVersion) (written : UInt32) : UInt32 :=
  if version = .v12 then written else 0

theorem carries (version : FormatVersion) (divisor producerId : UInt32) :
    version.Carries (version.divisor divisor) (version.producerId producerId) where
  divisor h := by rw [FormatVersion.divisor, if_pos h]
  producerId h := by rw [FormatVersion.producerId, if_neg h]

end FormatVersion

theorem sinceV11_divisor (version : FormatVersion) (divisor : UInt32) :
    sinceV11 version (u32 (version.divisor divisor)) = sinceV11 version (u32 divisor) := by
  cases version <;> rfl

theorem onlyV12_producerId (version : FormatVersion) (producerId : UInt32) :
    onlyV12 version (u32 (version.producerId producerId)) = onlyV12 version (u32 producerId) := by
  cases version <;> rfl

namespace StateChange

/-- The title ends at its first zero byte, and after eighty bytes. -/
def norm (version : FormatVersion) (s : StateChange) : StateChange :=
  { s with
    offsetDivisor := version.divisor s.offsetDivisor
    title := (s.title.takeWhile (· ≠ 0)).take 80
    producerId := version.producerId s.producerId }

theorem titleOf_titleBytes (title : Bytes) :
    titleOf (titleBytes title) = (title.takeWhile (· ≠ 0)).take maxTitle := by
  -- The field ends with a zero byte, so its filling is never part of the title.
  have hfill : (titleBytes title).takeWhile (· ≠ 0) = (title.take maxTitle).takeWhile (· ≠ 0) := by
    rw [titleBytes, List.takeWhile_append]
    split
    · rename_i hlen
      rw [(List.takeWhile_prefix _).eq_of_length hlen, List.takeWhile_replicate]
      simp
    · rfl
  rw [titleOf, hfill, List.take_takeWhile, List.take_take, Nat.min_self, List.take_takeWhile]

theorem read_payload (version : FormatVersion) (s : StateChange) :
    StateChange.read version s.kind (s.payload version) = .ok (s.norm version, []) := by
  refine read_eq_ok.2 ⟨titleBytes s.title, ?_, length_titleBytes _, rfl,
    (titleOf_titleBytes s.title).symm, version.carries _ _⟩
  rw [List.append_nil, payload_eq_layout]
  simp only [layout, norm, sinceV11_divisor, onlyV12_producerId]

end StateChange

namespace Scaler

/-- The first generation has only incremental readouts. -/
def norm (version : FormatVersion) (s : Scaler) : Scaler :=
  { s with
    intervalDivisor := version.divisor s.intervalDivisor
    isIncremental := version = .v10 || s.isIncremental
    producerId := version.producerId s.producerId }

theorem read_payload (version : FormatVersion) (s : Scaler) (h : s.values.length < 2 ^ 32) :
    Scaler.read version (s.payload version) = .ok (s.norm version, []) := by
  refine read_eq_ok.2 ⟨if version = .v10 ∨ s.isIncremental then 1 else 0, ?_, h, ?_, ?_,
    version.carries _ _⟩
  · rw [List.append_nil, payload_eq_layout]
    simp only [layout, norm, sinceV11_divisor, onlyV12_producerId]
    cases version <;> simp [sinceV11]
  · by_cases hv : version = .v10 <;> cases hi : s.isIncremental <;> simp [norm, hv, hi]
  · rintro rfl
    simp

end Scaler

namespace TextList

/-- The strings themselves are all carried. -/
def norm (version : FormatVersion) (t : TextList) : TextList :=
  { t with
    offsetDivisor := version.divisor t.offsetDivisor
    producerId := version.producerId t.producerId }

theorem drop_payload (version : FormatVersion) (t : TextList) :
    (t.payload version).drop (perVersion version 12 16 20) =
      t.strings.flatMap fun s => s ++ [0] := by
  refine List.drop_left' ?_
  cases version <;> simp [length_sinceV11, length_onlyV12, perVersion]

theorem wordAt_payload (version : FormatVersion) (t : TextList) (h : t.strings.length < 2 ^ 32) :
    wordAt 8 (t.payload version) = t.strings.length := by
  have hdrop := wordAt_drop 0 8 (t.payload version)
  rw [payload, List.append_assoc, List.append_assoc, List.append_assoc,
    List.drop_left' (by simp), wordAt_zero_u32_append, UInt32.toNat_ofNat_of_lt' h] at hdrop
  rw [payload, List.append_assoc, List.append_assoc, List.append_assoc, ← hdrop]

/-- Strings with no zero byte in them are those that add no zero byte to their ends. -/
theorem count_zero_flatMap (strings : List Bytes) :
    strings.length ≤ (strings.flatMap fun s => s ++ [0]).count 0 ∧
      ((strings.flatMap fun s => s ++ [0]).count 0 = strings.length ↔ ∀ s ∈ strings, 0 ∉ s) := by
  induction strings with
  | nil => simp
  | cons s strings ih =>
    obtain ⟨hle, hiff⟩ := ih
    rw [List.flatMap_cons, List.count_append, List.count_append, List.forall_mem_cons,
      ← hiff, ← List.count_eq_zero, List.length_cons]
    have hend : List.count (0 : UInt8) [0] = 1 := rfl
    omega

/-- Strings come back exactly when none has a zero byte in it. -/
theorem read_payload_iff {version : FormatVersion} {t t' : TextList}
    (h : t.strings.length < 2 ^ 32) :
    TextList.read version t.kind (t.payload version) = .ok (t', []) ↔
      (∀ s ∈ t.strings, 0 ∉ s) ∧ t' = t.norm version := by
  have hread (hzero : ∀ s ∈ t.strings, 0 ∉ s) :
      TextList.read version t.kind (t.payload version) = .ok (t.norm version, []) := by
    refine read_eq_ok.2 ⟨?_, rfl, h, hzero, version.carries _ _⟩
    simp only [payload, norm, sinceV11_divisor, onlyV12_producerId, List.append_nil]
  constructor
  · intro hok
    have hzero : ∀ s ∈ t.strings, 0 ∉ s := by
      obtain ⟨-, strings, hdrop, hcount, hzero⟩ := consumes_read.1 ⟨t', hok⟩
      rw [drop_payload] at hdrop
      rw [wordAt_payload version t h] at hcount
      rw [← (count_zero_flatMap t.strings).2, hdrop, (count_zero_flatMap strings).2.2 hzero, hcount]
    rw [hread hzero] at hok
    cases hok
    exact ⟨hzero, rfl⟩
  · rintro ⟨hzero, rfl⟩
    exact hread hzero

end TextList

namespace EventCount

/-- The count itself is always carried. -/
def norm (version : FormatVersion) (c : EventCount) : EventCount :=
  { c with
    offsetDivisor := version.divisor c.offsetDivisor
    producerId := version.producerId c.producerId }

theorem read_payload (version : FormatVersion) (c : EventCount) :
    EventCount.read version (c.payload version) = .ok (c.norm version, []) := by
  refine read_eq_ok.2 ⟨?_, version.carries _ _⟩
  simp only [payload, norm, sinceV11_divisor, onlyV12_producerId, List.append_nil]

end EventCount

namespace TimestampPolicy

/-- A code that has a name is read by its name. -/
def norm : TimestampPolicy → TimestampPolicy
  | .other 0 => .first
  | .other 1 => .last
  | .other 2 => .average
  | policy => policy

theorem ofCode_code (policy : TimestampPolicy) : ofCode policy.code = policy.norm := by
  cases policy with
  | first | last | average => rfl
  | other number =>
    by_cases hnamed : number = 0 ∨ number = 1 ∨ number = 2
    · rcases hnamed with rfl | rfl | rfl <;> rfl
    · simp only [not_or] at hnamed
      simp [code, ofCode, norm, hnamed]

end TimestampPolicy

namespace GlomParameters

/-- Only the name of the policy may change. -/
def norm (g : GlomParameters) : GlomParameters :=
  { g with timestampPolicy := g.timestampPolicy.norm }

theorem read_payload (g : GlomParameters) :
    GlomParameters.read g.payload = .ok (g.norm, []) := by
  have hcode : g.timestampPolicy.norm.code = g.timestampPolicy.code := by
    rw [← TimestampPolicy.ofCode_code, TimestampPolicy.code_ofCode]
  refine read_eq_ok.2 ⟨if g.isBuilding then 1 else 0, ?_, ?_, ?_⟩
  · rw [List.append_nil, payload_eq_layout, layout, layout, norm, hcode]
  · cases hb : g.isBuilding <;> simp [norm, hb]
  · rw [norm, hcode, TimestampPolicy.ofCode_code]

end GlomParameters

/-- The header that is read back. Only fragments of the first generation have to have one; it is
    made up of the greatest timestamp and of zeros. -/
def Body.normHeader (version : FormatVersion) (header : Option BodyHeader) (body : Body Record) :
    Option BodyHeader :=
  if version = .v10 ∧ body.isFragment then some (header.getD ⟨0xffffffffffffffff, 0, 0⟩)
  else header

mutual
/-- A record after it was written and read. One that was itself read comes back as it is. -/
def Record.norm : Record → Record
  | ⟨version, header, extension, body, some wire⟩ => ⟨version, header, extension, body, some wire⟩
  | ⟨version, header, extension, body, none⟩ =>
    ⟨version, body.normHeader version header, extension, body.norm version,
      some (Record.encode ⟨version, header, extension, body, none⟩)⟩

/-- A payload after it was written and read. -/
def Body.norm (version : FormatVersion) : Body Record → Body Record
  | .stateChange change => .stateChange (change.norm version)
  | .scaler readout => .scaler (readout.norm version)
  | .text list => .text (list.norm version)
  | .physicsEvent payload => .physicsEvent payload
  | .physicsEventCount count => .physicsEventCount (count.norm version)
  | .fragment part => .fragment part
  | .composite base children => .composite base (Record.norms children)
  | .glomParameters parameters => .glomParameters parameters.norm
  | .dataFormat format => .dataFormat format
  | .abnormalEnd => .abnormalEnd
  | .unknown typeTag payload => .unknown typeTag payload

/-- Several records after they were written and read. -/
def Record.norms : List Record → List Record
  | [] => []
  | r :: rs => r.norm :: Record.norms rs
end

mutual
/-- The strings of the text records in a record, at any depth. -/
def Record.texts : Record → List Bytes
  | ⟨_, _, _, body, _⟩ => body.texts

/-- The strings of the text records in a body. -/
def Body.texts : Body Record → List Bytes
  | .text list => list.strings
  | .composite _ children => Record.textsOfAll children
  | _ => []

/-- The strings of the text records in several records. -/
def Record.textsOfAll : List Record → List Bytes
  | [] => []
  | r :: rs => r.texts ++ Record.textsOfAll rs
end

mutual
/-- The greatest number of composite records with children that lie in each other. -/
def Record.nesting : Record → Nat
  | ⟨_, _, _, body, _⟩ => body.nesting

/-- The nesting of a body. -/
def Body.nesting : Body Record → Nat
  | .composite _ children => Record.nestingAround children
  | _ => 0

/-- The nesting of a composite record with these children. -/
def Record.nestingAround : List Record → Nat
  | [] => 0
  | r :: rs => max (r.nesting + 1) (Record.nestingAround rs)
end

namespace Record

theorem norms_eq_map (rs : List Record) : norms rs = rs.map norm := by
  induction rs with
  | nil => simp [norms]
  | cons r rs ih => simp [norms, ih]

theorem forall_mem_textsOfAll {rs : List Record} {p : Bytes → Prop} :
    (∀ s ∈ textsOfAll rs, p s) ↔ ∀ r ∈ rs, ∀ s ∈ r.texts, p s := by
  induction rs with
  | nil => simp [textsOfAll]
  | cons r rs ih => rw [textsOfAll, List.forall_mem_append, ih, List.forall_mem_cons]

theorem nestingAround_le_iff {rs : List Record} {depth : Nat} :
    nestingAround rs ≤ depth ↔ ∀ r ∈ rs, r.nesting < depth := by
  induction rs with
  | nil => simp [nestingAround]
  | cons r rs ih => rw [nestingAround, Nat.max_le, ih, List.forall_mem_cons, Nat.succ_le_iff]

theorem nesting_lt_of_mem_children {r child : Record} (h : child ∈ r.children) :
    child.nesting < r.nesting := by
  obtain ⟨version, header, extension, body, wire⟩ := r
  cases body with
  | composite base children => exact nestingAround_le_iff.1 (Nat.le_refl _) child h
  | _ => cases h

end Record

end DaqStream
