import DaqStream.Proofs.Record.Reachable

/-!
# Records that are equal

Equal records need not be written as the same bytes: one may have been read and the other built,
and so may the records in them, level by level. What they have in common is their `content`, which
has no retained bytes at all. Sizes and normal forms are those of the content
(`Made.size_content`, `Made.content_norm`), and so equal records are of one size and are read back
as equal records, or neither can be read back (`decode_encode_of_beq`).
-/

namespace DaqStream

section Content

mutual
theorem Record.same_iff (r s : Record) : r.same s = true ↔ r.content = s.content := by
  obtain ⟨version, header, extension, body, _⟩ := r
  obtain ⟨version', header', extension', body', _⟩ := s
  simp only [Record.same, Record.content, Bool.and_eq_true, decide_eq_true_eq, Record.mk.injEq,
    Body.same_iff body body', and_assoc, and_true]

theorem Body.same_iff (a b : Body Record) : a.same b = true ↔ a.content = b.content := by
  cases a with
  | composite base children =>
    cases b with
    | composite base' children' =>
      simp only [Body.same, Body.content, Bool.and_eq_true, decide_eq_true_eq,
        Body.composite.injEq, Record.allSame_iff children children']
    | _ => simp [Body.same, Body.content]
  | _ => cases b <;> simp [Body.same, Body.content]

theorem Record.allSame_iff (rs ss : List Record) :
    Record.allSame rs ss = true ↔ Record.contents rs = Record.contents ss := by
  cases rs with
  | nil => cases ss <;> simp [Record.allSame, Record.contents]
  | cons r rs =>
    cases ss with
    | nil => simp [Record.allSame, Record.contents]
    | cons s ss =>
      simp only [Record.allSame, Record.contents, Bool.and_eq_true, List.cons.injEq,
        Record.same_iff r s, Record.allSame_iff rs ss]
end

theorem Record.version_content (r : Record) : r.content.version = r.version := by
  obtain ⟨version, header, extension, body, wire⟩ := r
  rw [Record.content]

theorem Record.beq_iff {r s : Record} : (r == s) = true ↔ r.content = s.content :=
  Record.same_iff r s

mutual
theorem Record.texts_content (r : Record) : r.content.texts = r.texts := by
  obtain ⟨version, header, extension, body, wire⟩ := r
  rw [Record.content, Record.texts, Record.texts, Body.texts_content body]

theorem Body.texts_content (body : Body Record) : body.content.texts = body.texts := by
  cases body with
  | composite base children => exact Record.textsOfAll_contents children
  | _ => rfl

theorem Record.textsOfAll_contents (rs : List Record) :
    Record.textsOfAll (Record.contents rs) = Record.textsOfAll rs := by
  cases rs with
  | nil => rfl
  | cons r rs =>
    rw [Record.contents, Record.textsOfAll, Record.textsOfAll, Record.texts_content r,
      Record.textsOfAll_contents rs]
end

mutual
theorem Record.nesting_content (r : Record) : r.content.nesting = r.nesting := by
  obtain ⟨version, header, extension, body, wire⟩ := r
  rw [Record.content, Record.nesting, Record.nesting, Body.nesting_content body]

theorem Body.nesting_content (body : Body Record) : body.content.nesting = body.nesting := by
  cases body with
  | composite base children => exact Record.nestingAround_contents children
  | _ => rfl

theorem Record.nestingAround_contents (rs : List Record) :
    Record.nestingAround (Record.contents rs) = Record.nestingAround rs := by
  cases rs with
  | nil => rfl
  | cons r rs =>
    rw [Record.contents, Record.nestingAround, Record.nestingAround, Record.nesting_content r,
      Record.nestingAround_contents rs]
end

end Content

namespace Record

variable {r child : Record} {block : Bytes}

section Levels

/-- What holds of a record whenever it holds of the records in it holds of every record, whether it
    was built or read. -/
theorem Made.induction {motive : Record → Prop} (h : Made r)
    (step : ∀ r, Made r → (∀ child ∈ r.children, motive child) → motive r) : motive r := by
  induction hnesting : r.nesting using Nat.strong_induction_on generalizing r with
  | _ nesting ih =>
    refine step r h ?_
    intro child hmem
    have hlt := nesting_lt_of_mem_children hmem
    exact ih child.nesting (hnesting ▸ hlt) (h.of_mem_children hmem) rfl

theorem Made.size_eq_fieldSize (h : Made r) : r.size = r.fieldSize := by
  have hretains := h.wellFormed.wire
  obtain ⟨version, header, extension, body, wire⟩ := r
  cases wire with
  | none => rw [size, fieldSize]
  | some block =>
    have hblock := hretains block rfl
    rw [← hblock.length_eq_size, hblock.length_eq_fieldSize]

/-- Only a record that was read has retained bytes, and it lies in them. -/
theorem Made.liesIn (h : Made r) (hwire : r.wire = some block) :
    ∃ header front payload, LiesIn maxDepth r block header front payload := by
  cases h with
  | decoded hdecode =>
    obtain ⟨used, hprefix⟩ := decode_eq_ok.1 hdecode
    obtain ⟨block', _, ⟨-, hblock⟩, hread, -⟩ := decodePrefix_eq_ok.1 hprefix
    have hsame := wire_of_decodeWire hread
    rw [hwire] at hsame
    cases hsame
    exact liesIn_of_decodeWire hblock hread
  | physicsEvent => cases hwire
  | built _ hbuild =>
    obtain ⟨-, -, rfl⟩ := build_eq_ok.1 hbuild
    cases hwire

end Levels

section Size

theorem sizes_contents {rs : List Record} (h : ∀ r ∈ rs, r.content.size = r.size) :
    sizes (contents rs) = sizes rs := by
  induction rs with
  | nil => rfl
  | cons r rs ih =>
    obtain ⟨hfirst, hrest⟩ := List.forall_mem_cons.1 h
    rw [contents, sizes, sizes, hfirst, ih hrest]

/-- The retained bytes of a record are as many as its content takes. -/
theorem Made.size_content (h : Made r) : r.content.size = r.size := by
  refine Made.induction (motive := fun r => r.content.size = r.size) h ?_
  intro r hmade ih
  rw [hmade.size_eq_fieldSize]
  obtain ⟨version, header, extension, body, wire⟩ := r
  rw [content, size, fieldSize]
  dsimp only
  congr 1
  cases body with
  | composite base children => exact sizes_contents ih
  | _ => rfl

end Size

section NormalForm

theorem contents_norms {rs : List Record} (h : ∀ r ∈ rs, r.norm.content = r.content.norm.content) :
    contents (norms rs) = contents (norms (contents rs)) := by
  induction rs with
  | nil => rfl
  | cons r rs ih =>
    obtain ⟨hfirst, hrest⟩ := List.forall_mem_cons.1 h
    rw [norms, contents, hfirst, ih hrest, contents, norms, contents]

theorem normHeader_content (version : FormatVersion) (header : Option BodyHeader)
    (body : Body Record) : body.content.normHeader version header = body.normHeader version header := by
  cases body <;> rfl

/-- Writing and reading a record again does to its content what it does to a record that was built
    at every level. Where the record was read nothing is done to it, since what was read is in
    normal form already. -/
theorem Made.content_norm (h : Made r) : r.norm.content = r.content.norm.content := by
  refine Made.induction (motive := fun r => r.norm.content = r.content.norm.content) h ?_
  intro r hmade ih
  have hbody : (r.body.norm r.version).content = (r.body.content.norm r.version).content := by
    obtain ⟨version, header, extension, body, wire⟩ := r
    cases body with
    | composite base children => exact congrArg (Body.composite base) (contents_norms ih)
    | _ => rfl
  cases hwire : r.wire with
  | some block =>
    obtain ⟨header, front, payload, hlies⟩ := hmade.liesIn hwire
    have hsame := norm_of_bodyRead hlies.bodyRead
    have hheader := normHeader_of_bodyRead hlies.bodyRead
    rw [norm_of_wire hwire]
    obtain ⟨version, header, extension, body, wire⟩ := r
    dsimp only at hbody hsame hheader
    rw [content, norm, content, normHeader_content, hheader, ← hbody, hsame]
  | none =>
    obtain ⟨version, header, extension, body, wire⟩ := r
    cases hwire
    rw [norm, content, hbody, content, norm, content, normHeader_content]

end NormalForm

/-- What is read from the encoding of a record, and when it can be read. -/
theorem Made.decode_encode_iff {q : Record} (h : Made r) (hsize : r.size < 2 ^ 32) :
    decode r.version r.encode = .ok q ↔
      ((∀ s ∈ r.content.texts, 0 ∉ s) ∧ r.content.nesting ≤ maxDepth) ∧ q = r.norm := by
  obtain ⟨hblock, hread⟩ := h.readsBack hsize
  rw [decode_block hblock, hread, texts_content, nesting_content, and_assoc]

/-- Equal records are of one generation and one size. When their encodings are read again, either
    both fail, or both succeed, with equal records; records that were read come back as they are. -/
theorem decode_encode_of_beq {a b : Record} (ha : Reachable a) (hb : Reachable b)
    (hsame : (a == b) = true) (hsize : a.size < 2 ^ 32) :
    a.version = b.version ∧ a.size = b.size ∧
      ((∃ p q, decode a.version a.encode = .ok p ∧ decode b.version b.encode = .ok q ∧
          (p == q) = true) ∨
        (∃ e e', decode a.version a.encode = .error e ∧ decode b.version b.encode = .error e')) ∧
      (a.wire.isSome = true → b.wire.isSome = true →
        decode a.version a.encode = .ok a ∧ decode b.version b.encode = .ok b) := by
  have hcontent := beq_iff.1 hsame
  have hversion : a.version = b.version := by
    rw [← version_content a, hcontent, version_content]
  have hsizes : a.size = b.size := by
    rw [← ha.made.size_content, ← hb.made.size_content, hcontent]
  have hnorm : (a.norm == b.norm) = true := by
    rw [beq_iff, ha.made.content_norm, hb.made.content_norm, hcontent]
  have hreadA (q : Record) := @Made.decode_encode_iff a q ha.made hsize
  have hreadB (q : Record) := @Made.decode_encode_iff b q hb.made (hsizes ▸ hsize)
  refine ⟨hversion, hsizes, ?_, ?_⟩
  · -- Whether an encoding can be read is a matter of the content, which is the same.
    by_cases hreadable : (∀ s ∈ a.content.texts, 0 ∉ s) ∧ a.content.nesting ≤ maxDepth
    · have hreadable' := hreadable
      rw [hcontent] at hreadable'
      exact .inl ⟨a.norm, b.norm, (hreadA _).2 ⟨hreadable, rfl⟩, (hreadB _).2 ⟨hreadable', rfl⟩,
        hnorm⟩
    · refine .inr ?_
      cases hdecode : decode a.version a.encode with
      | ok p => exact absurd ((hreadA p).1 hdecode).1 hreadable
      | error e =>
        cases hdecode' : decode b.version b.encode with
        | ok q =>
          rw [hcontent] at hreadable
          exact absurd ((hreadB q).1 hdecode').1 hreadable
        | error e' => exact ⟨e, e', rfl, rfl⟩
  · intro hwire hwire'
    obtain ⟨block, hblock⟩ := Option.isSome_iff_exists.1 hwire
    obtain ⟨block', hblock'⟩ := Option.isSome_iff_exists.1 hwire'
    have hretains := ha.made.wellFormed.wire block hblock
    have hretains' := hb.made.wellFormed.wire block' hblock'
    rw [encode_of_wire hblock, encode_of_wire hblock']
    exact ⟨hretains.decode_eq, hretains'.decode_eq⟩

/-- The block of a mark that something failed, with a zero where writing puts a four. -/
def looseMarkBlock : Bytes := [12, 0, 0, 0, 5, 0, 0, 0, 0, 0, 0, 0]

def looseMark : Record := ⟨.v12, none, [], .abnormalEnd, some looseMarkBlock⟩

/-- The same in the front of a composite record, and not in its child. -/
def looseCompositeBlock : Bytes := [24, 0, 0, 0, 31, 128, 0, 0, 0, 0, 0, 0] ++ markExampleBlock

def looseComposite : Record :=
  ⟨.v12, none, [], .composite 31 [markExample], some looseCompositeBlock⟩

/-- A record that was built around one that was read, and records that were read at both levels,
    from two blocks. -/
theorem decode_encode_of_beq_loose :
    ∃ a c, composite .v12 31 none [looseMark] = .ok a ∧ Reachable a ∧
      Reachable looseComposite ∧ (a == looseComposite) = true ∧ a.size < 2 ^ 32 ∧
      a.encode ≠ looseComposite.encode ∧ a.size = looseComposite.size ∧
      decode .v12 a.encode = .ok c ∧ (c == looseComposite) = true ∧
      decode .v12 c.encode = .ok c ∧
      decode .v12 looseComposite.encode = .ok looseComposite := by
  have hbuild : composite .v12 31 none [looseMark] =
      .ok (assemble .v12 none (.composite 31 [looseMark])) := rfl
  have hmark : decode .v12 looseMarkBlock = .ok looseMark := by
    with_unfolding_all rfl
  have hloose : decode looseComposite.version looseComposite.encode = .ok looseComposite := by
    with_unfolding_all rfl
  have ha := Reachable.composite (List.forall_mem_singleton.2 (.decoded hmark)) hbuild
  have hb := Reachable.decoded hloose
  have hsame : (assemble .v12 none (.composite 31 [looseMark]) == looseComposite) = true := by
    rw [beq_iff]
    rfl
  have hlt : (assemble .v12 none (.composite 31 [looseMark])).size < 2 ^ 32 := by decide
  obtain ⟨-, hsize, heither, -⟩ := decode_encode_of_beq ha hb hsame hlt
  rcases heither with ⟨c, q, hread, hq, hequal⟩ | ⟨-, e, -, hfailed⟩
  · rw [hloose] at hq
    cases hq
    obtain ⟨-, rfl⟩ := (ha.made.decode_encode_iff hlt).1 hread
    obtain ⟨-, -, -, hboth⟩ := decode_encode_of_beq (.decoded hread) hb hequal (by decide)
    obtain ⟨hc, -⟩ := hboth rfl rfl
    exact ⟨_, _, hbuild, ha, hb, hsame, hlt, by decide, hsize, hread, hequal, hc, hloose⟩
  · rw [hloose] at hfailed
    cases hfailed

end Record

end DaqStream
