import DaqStream.Pipeline.Unglom
import DaqStream.Proofs.Fragment.Flat

/-!
# Decomposing a list of records

A decomposition from memory to memory writes the blocks that its records expand to, record by
record and in order, and counts what it did (`run_memory`). With built events left whole these
are the flat fragments of the parts of the records, no more and no fewer (`run_writes_parts`).
-/

namespace DaqStream

namespace Record

variable {options : UnglomOptions} {d : UInt32} {r : Record} {rs : List Record}

/-- The blocks of a list of records, in order. -/
def blocksOf (options : UnglomOptions) (rs : List Record) : List Bytes :=
  rs.flatMap fun r => (r.expand options).blocks.map flatBytes

@[simp] theorem blocksOf_nil : blocksOf options [] = [] := rfl

@[simp] theorem blocksOf_cons :
    blocksOf options (r :: rs) =
      (r.expand options).blocks.map flatBytes ++ blocksOf options rs := rfl

/-- Built events that are not split are written like any other record. -/
theorem expand_whole (r : Record) (d : UInt32) :
    r.expand { defaultSourceId := d } = { blocks := r.parts.map fun part => part.flatten d } := by
  obtain ⟨_, _, _, body, _⟩ := r
  cases body <;> rfl

theorem blocksOf_whole (rs : List Record) (d : UInt32) :
    blocksOf { defaultSourceId := d } rs = (rs.flatMap parts).map (flatBlock d) := by
  induction rs with
  | nil => rfl
  | cons r rs ih =>
    rw [blocksOf_cons, expand_whole, ih, List.flatMap_cons, List.map_append, List.map_map]
    rfl

end Record

namespace Unglom

variable {ω σ : Type}

section Steps

theorem emit_memory (u : Unglom σ MemorySink) (shared : ω)
    (blocks : List (FragmentHeader × Bytes)) :
    u.emit shared blocks =
      (.ok (),
       { u with
         sink := ⟨u.sink.blocks ++ (blocks.map flatBytes).toArray⟩
         tally := { u.tally with fragments := u.tally.fragments + blocks.length } },
       shared) := by
  induction blocks generalizing u with
  | nil => simp [emit]
  | cons block blocks ih =>
    obtain ⟨header, payload⟩ := block
    have hput : RecordSink.putParts u.sink [header.encode, payload] shared =
        (.ok (), u.sink.put (header.encode ++ payload), shared) := by
      simp [RecordSink.putParts]
    unfold emit
    rw [hput]
    dsimp only
    rw [ih]
    simp [MemorySink.put, flatBytes, Nat.add_assoc, Nat.add_comm 1]

/-- The decomposition once `rs` have been read and their blocks have been written. -/
def past (u : Unglom MemorySource MemorySink) (rs : List Record) (source : MemorySource) :
    Unglom MemorySource MemorySink where
  source := source
  sink := ⟨u.sink.blocks ++ (Record.blocksOf u.options rs).toArray⟩
  options := u.options
  tally :=
    { records := u.tally.records + rs.length
      fragments := u.tally.fragments + (Record.blocksOf u.options rs).length
      consumed := u.tally.consumed + rs.countP Record.isGlomParameters }

variable {r : Record} {rs : List Record} {u : Unglom MemorySource MemorySink} {atEnd : Bool}

theorem past_nil (source : MemorySource) : u.past [] source = { u with source } := by
  simp [past]

theorem past_past (source source' : MemorySource) :
    (u.past [r] source).past rs source' = u.past (r :: rs) source' := by
  simp only [past, Record.blocksOf_cons, Record.blocksOf_nil, List.append_nil, List.length_append,
    List.length_cons, List.length_nil, List.countP_cons, List.countP_nil, Array.append_assoc,
    List.append_toArray, Unglom.mk.injEq, UnglomTally.mk.injEq, true_and]
  omega

theorem processOne_memory (hsource : u.source = { records := r :: rs, atEnd })
    (hexpand : (r.expand u.options).failure = none) (shared : ω) :
    u.processOne shared = (.ok true, u.past [r] { records := rs, atEnd }, shared) := by
  have hread : RecordSource.readOne u.source shared =
      (.ok (some r), { records := rs, atEnd }, shared) := by
    rw [hsource]
    rfl
  unfold processOne
  rw [hread]
  dsimp only
  rw [emit_memory]
  dsimp only
  rw [hexpand]
  simp [past, List.countP_cons]

theorem processOne_memory_nil (hsource : u.source = { records := [], atEnd }) (shared : ω) :
    u.processOne shared =
      (.ok false, { u with source := { records := [], atEnd := true } }, shared) := by
  have hread : RecordSource.readOne u.source shared =
      (.ok none, { records := [], atEnd := true }, shared) := by
    rw [hsource]
    rfl
  unfold processOne
  rw [hread]

theorem steps_memory (rs : List Record) (hsource : u.source = { records := rs, atEnd })
    (hexpand : ∀ r ∈ rs, (r.expand u.options).failure = none) (shared : ω) :
    u.steps (rs.length + 1) shared =
      some (.ok (), u.past rs { records := [], atEnd := true }, shared) := by
  induction rs generalizing u with
  | nil => rw [List.length_nil, steps, processOne_memory_nil hsource, past_nil]
  | cons r rs ih =>
    obtain ⟨hfirst, hrest⟩ := List.forall_mem_cons.1 hexpand
    rw [List.length_cons, steps, processOne_memory hsource hfirst]
    dsimp only
    have hleft : (u.past [r] { records := rs, atEnd }).source = { records := rs, atEnd } := rfl
    rw [ih hleft hrest, past_past]

end Steps

/-- From memory to memory nothing but a record can go wrong. If none does, all blocks of all
    records are written in order. -/
theorem run_memory (u : Unglom MemorySource MemorySink)
    (hexpand : ∀ r ∈ u.source.records, (r.expand u.options).failure = none) (shared : ω) :
    u.run shared =
      (.ok (u.past u.source.records { records := [], atEnd := true }).tally,
        u.past u.source.records { records := [], atEnd := true }, shared) := by
  have hsource : u.source = { records := u.source.records, atEnd := u.source.atEnd } := rfl
  have hsteps := steps_memory u.source.records hsource hexpand shared
  have hwithin : u.runWithin (FiniteSource.supply ω u.source + 1) shared =
      some (conclude (.ok (), u.past u.source.records { records := [], atEnd := true }, shared)) :=
    congrArg (Option.map conclude) hsteps
  exact Option.some_inj.1 ((Option.some_get (isSome_runWithin u shared)).trans hwithin)

/-- A decomposition of records in memory into blocks in memory. -/
def ofRecords (rs : List Record) (options : UnglomOptions) : Unglom MemorySource MemorySink where
  source := { records := rs }
  sink := {}
  options := options

open Record

theorem run_ofRecords {options : UnglomOptions} (rs : List Record)
    (hexpand : ∀ r ∈ rs, (r.expand options).failure = none) (shared : ω) :
    ∃ u : Unglom MemorySource MemorySink,
      (ofRecords rs options).run shared =
        (.ok { records := rs.length
               fragments := u.sink.blocks.size
               consumed := rs.countP isGlomParameters }, u, shared) ∧
      u.sink.blocks.toList = blocksOf options rs := by
  have hrun := run_memory (ofRecords rs options) hexpand shared
  refine ⟨(ofRecords rs options).past rs { records := [], atEnd := true }, ?_, ?_⟩
  · rw [hrun]
    simp [past, ofRecords]
  · simp [past, ofRecords]

/-- Nothing is lost, written twice or out of place: the blocks are those of the parts of the
    records, each a header that describes its part and then the part, which is read from there
    as it is from its own encoding. The counts are those of the records, of the blocks and of the
    glom parameters that were taken away. -/
theorem run_writes_parts (rs : List Record) (d : UInt32) (shared : ω)
    (h : ∀ r ∈ rs, Rereadable r) :
    ∃ u : Unglom MemorySource MemorySink,
      (ofRecords rs { defaultSourceId := d, splitBuiltEvents := false }).run shared =
        (.ok { records := rs.length
               fragments := u.sink.blocks.size
               consumed := rs.countP isGlomParameters }, u, shared) ∧
      List.Forall₂ (IsFlat d) (rs.flatMap parts) u.sink.blocks.toList := by
  have hexpand : ∀ r ∈ rs, (r.expand { defaultSourceId := d }).failure = none := by
    intro r _
    rw [expand_whole]
  obtain ⟨u, hrun, hblocks⟩ := run_ofRecords rs hexpand shared
  refine ⟨u, hrun, ?_⟩
  rw [hblocks, blocksOf_whole, List.forall₂_map_right_iff, List.forall₂_same]
  intro part hmem
  obtain ⟨r, hr, hpart⟩ := List.mem_flatMap.1 hmem
  exact isFlat_flatBlock ((h r hr).of_mem_parts hpart) d

/-- Glom parameters, between records and inside of one. -/
def glomExample : Record := assemble .v12 none (.glomParameters ⟨5, true, .first⟩)

def beginExample : Record :=
  assemble .v12 (some ⟨7, 2, 1⟩) (.stateChange { kind := .beginRun, runNumber := 3 })

def eventExample : Record := Record.physicsEvent .v11 none [1, 2, 3]

/-- A composite record of a run transition, of a composite record and of glom parameters. -/
def mixedExample : Record :=
  assemble .v12 none (.composite 31 [beginExample, compositeExample, glomExample])

theorem reachable_glomExample : Reachable glomExample := by
  have hbuild : build .v12 none (.glomParameters ⟨5, true, .first⟩) = .ok glomExample := rfl
  refine .built ?_ hbuild
  intro base children hbody
  cases hbody

theorem reachable_mixedExample : Reachable mixedExample := by
  have hbuild : build .v12 none mixedExample.body = .ok mixedExample := rfl
  have hbegin : Reachable beginExample := by
    have hbuild : build .v12 (some ⟨7, 2, 1⟩) beginExample.body = .ok beginExample := rfl
    refine .built ?_ hbuild
    intro base children hbody
    cases hbody
  have hread : Reachable compositeExample := .decoded decode_compositeExampleBlock
  refine .built ?_ hbuild
  intro base children hbody
  cases hbody
  simp only [List.forall_mem_cons, List.not_mem_nil, false_implies, implies_true, and_true]
  exact ⟨hbegin, hread, reachable_glomExample⟩

/-- Two of the parts of the composite record are of the kinds that are not written as they are
    when they stand alone. -/
theorem run_writes_parts_mixed :
    ∃ u : Unglom MemorySource MemorySink,
      (ofRecords [glomExample, mixedExample, eventExample] { defaultSourceId := 9 }).run () =
        (.ok { records := 3, fragments := 4, consumed := 1 }, u, ()) ∧
      List.Forall₂ (IsFlat 9) [beginExample, compositeExample, glomExample, eventExample]
        u.sink.blocks.toList := by
  have hall : ∀ r ∈ [glomExample, mixedExample, eventExample], Rereadable r := by
    simp only [List.forall_mem_cons, List.not_mem_nil, false_implies, implies_true, and_true]
    refine ⟨rereadable_iff.2 ⟨reachable_glomExample, ?_⟩,
      rereadable_iff.2 ⟨reachable_mixedExample, ?_⟩,
      rereadable_iff.2 ⟨.physicsEvent _ _ _, ?_⟩⟩ <;> decide
  obtain ⟨u, hrun, hblocks⟩ := run_writes_parts [glomExample, mixedExample, eventExample] 9 () hall
  have hsize : u.sink.blocks.size = 4 := hblocks.length_eq.symm
  rw [hsize] at hrun
  exact ⟨u, hrun, hblocks⟩

end Unglom

end DaqStream
