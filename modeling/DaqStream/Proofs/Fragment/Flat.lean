import DaqStream.Fragment.Header
import DaqStream.Proofs.Record.Framing

/-!
# Flat fragments

The header of a flat fragment is read back whatever follows it, and its payload size is the
length of what follows. So a block that was written for a record says on its own whose it is,
and the record is found again behind the header (`isFlat_flatBlock`).

`parts` says into which records a record is decomposed. What holds of records that can be
written and read again holds of their parts as well.
-/

namespace DaqStream

open LittleEndian

namespace FragmentHeader

@[simp] theorem length_encode (h : FragmentHeader) : h.encode.length = wireSize := by
  simp [encode, wireSize]

/-- The header in front of any bytes is read back. -/
theorem decode_encode_append (h : FragmentHeader) (rest : Bytes) :
    decode (h.encode ++ rest) = .ok h := by
  have hcut : Bytes.cut wireSize (h.encode ++ rest) = some (h.encode, rest) :=
    Bytes.cut_eq_some_iff.2 ⟨rfl, length_encode h⟩
  have htime : h.encode.take 8 = u64 h.timestamp := by
    simp [encode, List.append_assoc]
  have hsource : (h.encode.drop 8).take 4 = u32 h.sourceId := by
    simp [encode, List.append_assoc]
  have hsize : (h.encode.drop 12).take 4 = u32 h.payloadSize := by
    simp [encode, List.append_assoc, List.drop_append, List.drop_of_length_le]
  have hbarrier : h.encode.drop 16 = u32 h.barrierType := by
    simp [encode, List.append_assoc, List.drop_append, List.drop_of_length_le]
  unfold decode
  rw [hcut]
  dsimp only
  rw [htime, hsource, hsize, hbarrier]
  simp

end FragmentHeader

/-- The bytes of a flat fragment. -/
def flatBytes (fragment : FragmentHeader × Bytes) : Bytes := fragment.1.encode ++ fragment.2

namespace Record

variable {r child : Record} {d : UInt32}

section Rereadable

/-- A record that a program can come by, and that can be read again once it was written. -/
structure Rereadable (r : Record) : Prop where
  reachable : Reachable r
  size_lt : r.size < 2 ^ 32
  decodes : ∃ q, decode r.version r.encode = .ok q

theorem rereadable_iff :
    Rereadable r ↔ Reachable r ∧ r.size < 2 ^ 32 ∧ (∀ s ∈ r.texts, 0 ∉ s) ∧
      r.nesting ≤ maxDepth := by
  constructor
  · intro h
    obtain ⟨hblock, hread⟩ := h.reachable.made.readsBack h.size_lt
    obtain ⟨q, hq⟩ := h.decodes
    obtain ⟨htexts, hnesting, -⟩ := (hread maxDepth q).1 ((decode_block hblock).1 hq)
    exact ⟨h.reachable, h.size_lt, htexts, hnesting⟩
  · intro h
    obtain ⟨hreachable, hsize, htexts, hnesting⟩ := h
    obtain ⟨hblock, hread⟩ := hreachable.made.readsBack hsize
    have hwire := (hread maxDepth r.norm).2 ⟨htexts, hnesting, rfl⟩
    exact ⟨hreachable, hsize, r.norm, (decode_block hblock).2 hwire⟩

theorem texts_of_mem_children (h : child ∈ r.children) :
    ∀ s ∈ child.texts, s ∈ r.texts := by
  obtain ⟨_, _, _, body, _⟩ := r
  cases body with
  | composite base children =>
    intro s hs
    exact forall_mem_textsOfAll.1 (fun _ hmem => hmem) child h s hs
  | _ => simp [children] at h

/-- A record that was read lies in a block as a whole, and what was built takes no less room
    than its parts. -/
theorem size_lt_of_mem_children (hmade : Made r) (hsize : r.size < 2 ^ 32)
    (h : child ∈ r.children) : child.size < 2 ^ 32 := by
  cases hmade with
  | @decoded version _ _ hdecode =>
    obtain ⟨used, hprefix⟩ := decode_eq_ok.1 hdecode
    obtain ⟨_, _, -, hread, -⟩ := decodePrefix_eq_ok.1 hprefix
    obtain ⟨block, hblock, _, -, hchild⟩ := decodeWire_of_mem_children hread h
    rw [size_of_wire (wire_of_decodeWire hchild)]
    exact hblock.length_lt
  | physicsEvent => simp [Record.physicsEvent, assemble, children] at h
  | @built version header body _ _ hbuild =>
    obtain ⟨-, -, rfl⟩ := build_eq_ok.1 hbuild
    cases body with
    | composite base children =>
      have hle : child.size ≤ sizes children := size_le_sizes h
      have hwhole : sizes children ≤ (assemble version header (.composite base children)).size := by
        rw [assemble, size, Body.payloadSize]
        omega
      omega
    | _ => simp [assemble, children] at h

theorem Rereadable.of_mem_children (h : Rereadable r) (hmem : child ∈ r.children) :
    Rereadable child := by
  obtain ⟨hreachable, hsize, htexts, hnesting⟩ := rereadable_iff.1 h
  refine rereadable_iff.2 ⟨.child hreachable hmem, ?_, ?_, ?_⟩
  · exact size_lt_of_mem_children hreachable.made hsize hmem
  · intro s hs
    exact htexts s (texts_of_mem_children hmem s hs)
  · exact Nat.le_trans (Nat.le_of_lt (nesting_lt_of_mem_children hmem)) hnesting

end Rereadable

section Blocks

/-- The block that is written for a record. -/
def flatBlock (d : UInt32) (r : Record) : Bytes := flatBytes (r.flatten d)

theorem length_flatBlock (d : UInt32) (r : Record) :
    (flatBlock d r).length = FragmentHeader.wireSize + r.size := by
  rw [flatBlock, flatBytes, flatten, List.length_append, FragmentHeader.length_encode, length_encode]

/-- What a reader finds in a block that carries `r`; `d` is the source id of records without a
    body header. -/
structure IsFlat (d : UInt32) (r : Record) (block : Bytes) : Prop where
  length_eq : block.length = 20 + r.encode.length
  payload_eq : block.drop 20 = r.encode
  header : ∃ h, FragmentHeader.decode block = .ok h ∧
    h.payloadSize.toNat = block.length - 20 ∧
    (∀ own, r.header = some own → h.timestamp = own.timestamp ∧ h.sourceId = own.sourceId) ∧
    (r.header = none → h.timestamp = 0xFFFFFFFFFFFFFFFF ∧ h.sourceId = d) ∧
    h.barrierType =
      if r.kind = .beginRun ∨ r.kind = .endRun ∨ r.kind = .pauseRun ∨ r.kind = .resumeRun then
        r.typeTag
      else 0
  /-- The payload is one record, the same that is read from the encoding of `r`. -/
  decodes : ∃ q, decode r.version r.encode = .ok q ∧
    decodePrefix r.version (block.drop 20) = .ok (q, block.length - 20)

theorem isFlat_flatBlock (h : Rereadable r) (d : UInt32) : IsFlat d r (flatBlock d r) := by
  have hlength := length_flatBlock d r
  have hpayload : (flatBlock d r).drop 20 = r.encode :=
    List.drop_left' (FragmentHeader.length_encode _)
  obtain ⟨q, hq⟩ := h.decodes
  have hread : ReadBackAs r.version r q := (readBackAs_iff h.reachable.made).2 ⟨hq, h.size_lt⟩
  have hencoded := length_encode r
  have hleft : (flatBlock d r).length - 20 = r.size := by
    rw [hlength, FragmentHeader.wireSize]
    omega
  refine ⟨?_, hpayload, ?_, ?_⟩
  · rw [hlength, hencoded, FragmentHeader.wireSize]
  · have hbarrier := RecordKind.barrierType_eq r.kind
    refine ⟨_, FragmentHeader.decode_encode_append _ _, ?_, ?_, ?_, hbarrier⟩
    · rw [hleft]
      exact UInt32.toNat_ofNat_of_lt' h.size_lt
    · intro own hown
      simp [flatten, FragmentHeader.ofRecord, hown]
    · intro hnone
      simp [flatten, FragmentHeader.ofRecord, hnone, nullTimestamp]
  · refine ⟨q, hq, ?_⟩
    rw [hpayload, hleft, ← hencoded]
    exact hread

end Blocks

section Parts

/-- The records that are written for `r`: nothing for glom parameters, the children of a
    composite record, each as a whole, and any other record itself. -/
def parts (r : Record) : List Record :=
  match r.body with
  | .glomParameters _ => []
  | .composite _ children => children
  | _ => [r]

/-- Records that are neither taken away nor taken apart. -/
theorem parts_eq_singleton (hcomposite : ∀ base children, r.body ≠ .composite base children)
    (hglom : ∀ parameters, r.body ≠ .glomParameters parameters) : r.parts = [r] := by
  unfold parts
  split
  · rename_i parameters hbody
    exact absurd hbody (hglom parameters)
  · rename_i base children hbody
    exact absurd hbody (hcomposite base children)
  · rfl

theorem Rereadable.of_mem_parts {part : Record} (h : Rereadable r) (hmem : part ∈ r.parts) :
    Rereadable part := by
  unfold parts at hmem
  split at hmem
  · simp at hmem
  · rename_i base children hbody
    apply h.of_mem_children
    rw [Record.children, hbody]
    exact hmem
  · rw [List.mem_singleton.1 hmem]
    exact h

end Parts

end Record

end DaqStream
