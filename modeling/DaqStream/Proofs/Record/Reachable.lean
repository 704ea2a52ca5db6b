import DaqStream.Fragment.Header
import DaqStream.Proofs.Record.Rebuild
import DaqStream.Transport.Source

/-!
# The records that there can be

`Reachable` lists every way to come by a record: the constructors, reading, and taking records
out of records. All of them come down to the constructors that `Made` has, and so whatever
holds of a record that was built and of one that was read holds of every record at every level
below a reachable one (`wellFormed_of_reachable`).
-/

namespace DaqStream

open LittleEndian Reading

namespace Record

/-- Records that a program can come by. -/
inductive Reachable : Record → Prop
  | built {version : FormatVersion} {header : Option BodyHeader} {body : Body Record} {r : Record} :
      (∀ base children, body = .composite base children → ∀ child ∈ children, Reachable child) →
      build version header body = .ok r → Reachable r
  | stateChange {version : FormatVersion} {kind : RecordKind} {runNumber : UInt32} {r : Record} :
      Record.stateChange version kind runNumber = .ok r → Reachable r
  | physicsEvent (version : FormatVersion) (header : Option BodyHeader) (payload : Bytes) :
      Reachable (Record.physicsEvent version header payload)
  | composite {version : FormatVersion} {base : UInt32} {header : Option BodyHeader}
      {children : List Record} {r : Record} : (∀ child ∈ children, Reachable child) →
      Record.composite version base header children = .ok r → Reachable r
  | abnormalEnd {version : FormatVersion} {r : Record} :
      Record.abnormalEnd version = .ok r → Reachable r
  | wrapped {r : Record} (defaultSourceId : UInt32) :
      Reachable r → Reachable (r.wrap defaultSourceId)
  /-- The bytes may be borrowed or owned. -/
  | decoded {version : FormatVersion} {bytes : Bytes} {r : Record} :
      decode version bytes = .ok r → Reachable r
  | served {version : FormatVersion} {bytes : Bytes} {source : MemorySource} {r : Record} :
      MemorySource.ofBytes version bytes = .ok source → r ∈ source.records → Reachable r
  | unwrapped {version : FormatVersion} {part : Fragment} {r : Record} :
      part.unwrap version = .ok r → Reachable r
  /-- The body of a record, in another one. -/
  | ofBody {version : FormatVersion} {header : Option BodyHeader} {r q : Record} :
      Reachable r → build version header r.body = .ok q → Reachable q
  | child {r child : Record} : Reachable r → child ∈ r.children → Reachable child

/-- `Inside q r` says that `q` is `r`, or lies in it at any level. -/
inductive Inside : Record → Record → Prop
  | self (r : Record) : Inside r r
  | deeper {q r child : Record} : child ∈ r.children → Inside q child → Inside q r

theorem made_wrap (r : Record) (defaultSourceId : UInt32) : Made (r.wrap defaultSourceId) := by
  refine .built ?_ (build_eq_ok.2 ⟨?_, ?_, rfl⟩)
  · intro base children hbody
    cases hbody
  · trivial
  · exact RecordKind.ofTag_fragment r.version

theorem made_of_mem_ofBytes {version : FormatVersion} {bytes : Bytes} {source : MemorySource}
    {r : Record} (h : MemorySource.ofBytes version bytes = .ok source) (hmem : r ∈ source.records) :
    Made r := by
  unfold MemorySource.ofBytes at h
  cases hall : decodeAll version bytes with
  | error e =>
    rw [hall] at h
    cases h
  | ok rs =>
    rw [hall] at h
    cases h
    obtain ⟨blocks, -, hblocks⟩ := readAll_eq_ok.1 hall
    obtain ⟨block, hblock, hread⟩ := exists_of_forall₂_of_mem hblocks hmem
    exact .decoded ((decode_block hblock).2 hread)

/-- The ways to come by a record are no more than building and reading. -/
theorem Reachable.made {r : Record} (h : Reachable r) : Made r := by
  induction h with
  | built _ hbuild ih => exact .built ih hbuild
  | stateChange hbuild | abnormalEnd hbuild =>
    refine .built ?_ hbuild
    intro base children hbody
    cases hbody
  | physicsEvent version header payload => exact .physicsEvent version header payload
  | @composite version base header children r _ hbuild ih =>
    refine .built ?_ hbuild
    intro base' children' hbody
    cases hbody
    exact ih
  | wrapped defaultSourceId _ _ => exact made_wrap _ defaultSourceId
  | decoded hdecode => exact .decoded hdecode
  | served hsource hmem => exact made_of_mem_ofBytes hsource hmem
  | unwrapped hdecode => exact .decoded hdecode
  | ofBody _ hbuild ih => exact .built ih.of_body hbuild
  | child _ hmem ih => exact ih.of_mem_children hmem

theorem Made.of_inside {q r : Record} (h : Made r) (hinside : Inside q r) : Made q := by
  induction hinside with
  | self => exact h
  | deeper hmem _ ih => exact ih (h.of_mem_children hmem)

/-- The bytes that a record was read from are all of it: they are as long as its fields, they
    are read as the record and as nothing else, and those after its header are the bytes that
    its children were read from. -/
structure Retains (r : Record) (block : Bytes) : Prop where
  length_eq_fieldSize : block.length = r.fieldSize
  length_eq_size : block.length = r.size
  decode_eq : decode r.version block = .ok r
  children : ∀ base children, r.body = .composite base children → ∃ blocks : List Bytes,
    List.Forall₂ (fun block child => child.wire = some block) blocks children ∧
      blocks.flatten = r.payloadIn block

/-- What holds of every record. -/
structure WellFormed (r : Record) : Prop where
  ofTag_typeTag : RecordKind.ofTag r.version r.typeTag = r.kind
  /-- The first generation has a header in fragments only. -/
  header : r.version = .v10 → r.header.isSome = true → r.body.isFragment = true
  extension : r.extension ≠ [] → r.header.isSome = true ∧ (r.version = .v11 ∨ r.version = .v12)
  /-- Only the last generation has composite records, and these are of one generation. -/
  composite : ∀ base children, r.body = .composite base children →
    r.version = .v12 ∧ ∀ child ∈ children, child.version = r.version
  stateChange : ∀ change, r.body = .stateChange change →
    change.kind = .beginRun ∨ change.kind = .endRun ∨ change.kind = .pauseRun ∨
      change.kind = .resumeRun
  text : ∀ list, r.body = .text list →
    list.kind = .packetTypes ∨ list.kind = .monitoredVariables
  wire : ∀ block, r.wire = some block → r.Retains block

/-- What is checked when a record is built, and what is left to say of one that was read. -/
theorem wellFormed_of_fits {r : Record} (hkind : RecordKind.ofTag r.version r.typeTag = r.kind)
    (hfits : r.body.Fits r.version)
    (hheader : r.version = .v10 → r.body.isFragment = false → r.header = none)
    (hextension : r.extension ≠ [] → r.header.isSome = true ∧ r.version ≠ .v10)
    (hwire : ∀ block, r.wire = some block → r.Retains block) : WellFormed r where
  ofTag_typeTag := hkind
  header := by
    intro hversion hsome
    cases hfragment : r.body.isFragment with
    | true => rfl
    | false =>
      rw [hheader hversion hfragment] at hsome
      cases hsome
  extension := by
    intro hne
    obtain ⟨hsome, hversion⟩ := hextension hne
    refine ⟨hsome, ?_⟩
    cases hv : r.version with
    | v10 => exact absurd hv hversion
    | v11 => exact .inl rfl
    | v12 => exact .inr rfl
  composite := by
    intro base children hbody
    rw [hbody] at hfits
    have hcomposite : r.kind = .composite base := by
      rw [kind, hbody]
      rfl
    rw [hcomposite] at hkind
    exact ⟨RecordKind.version_of_ofTag_composite hkind, hfits⟩
  stateChange := by
    intro change hbody
    rw [hbody] at hfits
    exact RecordKind.isStateChange_iff.1 hfits
  text := by
    intro list hbody
    rw [hbody] at hfits
    exact RecordKind.isText_iff.1 hfits
  wire := hwire

theorem wellFormed_assemble {version : FormatVersion} {header : Option BodyHeader}
    {body : Body Record} (hfits : body.Fits version)
    (hkind : RecordKind.ofTag version body.kind.typeTag = body.kind) :
    WellFormed (assemble version header body) := by
  apply wellFormed_of_fits hkind hfits
  · rintro rfl hfragment
    have hplain : body.isFragment = false := hfragment
    simp [assemble, hplain]
  · intro hne
    exact absurd rfl hne
  · intro block hwire
    cases hwire

theorem wellFormed_of_decodeWire {version : FormatVersion} {wire : Bytes} {r : Record}
    (hblock : IsBlock wire) (h : decodeWire version maxDepth wire = .ok r) : WellFormed r := by
  obtain ⟨header, front, payload, hlies⟩ := liesIn_of_decodeWire hblock h
  obtain rfl := version_of_decodeWire h
  have hwire := wire_of_decodeWire h
  apply wellFormed_of_fits hlies.ofTag_typeTag (fits_of_bodyRead hlies.bodyRead) hlies.header_none
  · exact hlies.header_of_extension
  · intro block hretained
    rw [hwire] at hretained
    cases hretained
    have hfieldSize : wire.length = r.fieldSize := by
      rw [hlies.length_wire, hlies.length_front, hlies.length_payload, fieldSize]
    refine ⟨hfieldSize, (size_of_wire hwire).symm, (decode_block hblock).2 h, ?_⟩
    intro base children hbody
    obtain ⟨blocks, hpayload, hall⟩ := children_of_bodyRead hlies.bodyRead base children hbody
    refine ⟨blocks, hall.imp fun _ _ hchild => hchild.2.2, ?_⟩
    rw [hlies.payloadIn_eq, hpayload]

theorem Made.wellFormed {r : Record} (h : Made r) : WellFormed r := by
  cases h with
  | decoded hdecode =>
    obtain ⟨used, hprefix⟩ := decode_eq_ok.1 hdecode
    obtain ⟨block, _, ⟨-, hblock⟩, hread, -⟩ := decodePrefix_eq_ok.1 hprefix
    exact wellFormed_of_decodeWire hblock hread
  | physicsEvent version header payload =>
    exact wellFormed_assemble trivial (RecordKind.ofTag_physicsEvent version)
  | built _ hbuild =>
    obtain ⟨hfits, hkind, rfl⟩ := build_eq_ok.1 hbuild
    exact wellFormed_assemble hfits hkind

/-- Every record that a program can come by is well formed, and so is every record in it. -/
theorem wellFormed_of_reachable {q r : Record} (h : Reachable r) (hinside : Inside q r) :
    WellFormed q :=
  (h.made.of_inside hinside).wellFormed

/-- The block of a mark that something failed. -/
def markExampleBlock : Bytes := [12, 0, 0, 0, 5, 0, 0, 0, 4, 0, 0, 0]

def markExample : Record := ⟨.v12, none, [], .abnormalEnd, some markExampleBlock⟩

/-- The block of a composite record around the mark. -/
def compositeExampleBlock : Bytes := [24, 0, 0, 0, 30, 128, 0, 0, 4, 0, 0, 0] ++ markExampleBlock

def compositeExample : Record :=
  ⟨.v12, none, [], .composite 30 [markExample], some compositeExampleBlock⟩

theorem decode_compositeExampleBlock :
    decode .v12 compositeExampleBlock = .ok compositeExample := by
  with_unfolding_all rfl

/-- A record built around one that was read around the mark. -/
theorem wellFormed_of_reachable_around :
    ∃ r, composite .v12 31 none [compositeExample] = .ok r ∧ Reachable r ∧ Inside markExample r ∧
      WellFormed markExample := by
  have hread : Reachable compositeExample := by
    have hdecode : decode .v12 compositeExampleBlock = .ok compositeExample := by
      with_unfolding_all rfl
    exact .decoded hdecode
  have hbuild : composite .v12 31 none [compositeExample] =
      .ok (assemble .v12 none (.composite 31 [compositeExample])) := rfl
  have hreach := Reachable.composite (List.forall_mem_singleton.2 hread) hbuild
  have hmark : Inside markExample compositeExample :=
    .deeper (List.mem_singleton_self markExample) (.self markExample)
  have hinside : Inside markExample (assemble .v12 none (.composite 31 [compositeExample])) :=
    .deeper (List.mem_singleton_self compositeExample) hmark
  exact ⟨_, hbuild, hreach, hinside, wellFormed_of_reachable hreach hinside⟩

end Record

end DaqStream
