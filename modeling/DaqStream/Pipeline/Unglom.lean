import DaqStream.Fragment.BuiltEvent
import DaqStream.Transport.Source
import DaqStream.Transport.Sink

/-!
# Decomposing records into flat fragments

Every record becomes blocks, each a fragment header and a written record. Glom parameters
give no block, a composite record gives one for each of its children, anything else gives
one for the whole record. On demand, an event with a body header is taken for one that an
event builder made, and gives the fragments inside it.

`expand` says which blocks a record gives; `processOne` reads a record and writes its blocks.
-/

namespace DaqStream

/-- How records are decomposed. -/
structure UnglomOptions where
  /-- Source id for records without a body header. -/
  defaultSourceId : UInt32 := 0
  /-- Whether built events are split. -/
  splitBuiltEvents : Bool := false
  deriving DecidableEq, Repr

/-- The blocks that a record gives, and why there are no more of them, if something is wrong
    with the record. -/
structure Expansion where
  blocks : List (FragmentHeader × Bytes)
  failure : Option RecordError := none

namespace Expansion

/-- The fragments in front of the first error, and that error. -/
def ofItems : List (Except RecordError (FragmentHeader × Bytes)) → Expansion
  | [] => { blocks := [] }
  | .ok block :: items => { ofItems items with blocks := block :: (ofItems items).blocks }
  | .error e :: _ => { blocks := [], failure := some e }

/-- The fragments inside a built event. -/
def ofBuiltEvent (payload : Bytes) : Expansion :=
  match BuiltEvent.ofPayload payload with
  | .ok event => ofItems event.items
  | .error e => { blocks := [], failure := some e }

end Expansion

namespace Record

/-- The blocks that a record gives. -/
def expand (r : Record) (options : UnglomOptions) : Expansion :=
  match r.body with
  | .glomParameters _ => { blocks := [] }
  | .composite _ children =>
    { blocks := children.map fun child => child.flatten options.defaultSourceId }
  | .physicsEvent payload =>
    if options.splitBuiltEvents && r.header.isSome then Expansion.ofBuiltEvent payload
    else { blocks := [r.flatten options.defaultSourceId] }
  | _ => { blocks := [r.flatten options.defaultSourceId] }

/-- Whether a record is consumed without giving a block. -/
def isGlomParameters (r : Record) : Bool :=
  match r.body with
  | .glomParameters _ => true
  | _ => false

end Record

/-- What a decomposition has done. -/
structure UnglomTally where
  records : Nat := 0
  /-- Blocks written. -/
  fragments : Nat := 0
  /-- Glom parameters consumed. -/
  consumed : Nat := 0
  deriving DecidableEq, Repr

/-- A decomposition of the records of a source into the blocks of a sink. -/
structure Unglom (σ κ : Type) where
  source : σ
  sink : κ
  options : UnglomOptions
  tally : UnglomTally := {}

namespace Unglom

variable {ω σ κ : Type}

section Steps

variable [RecordSink ω κ]

/-- Write blocks in order, up to the first failure. -/
def emit (u : Unglom σ κ) (shared : ω) :
    List (FragmentHeader × Bytes) → Except PipelineError Unit × Unglom σ κ × ω
  | [] => (.ok (), u, shared)
  | (header, payload) :: blocks =>
    match RecordSink.putParts u.sink [header.encode, payload] shared with
    | (.ok (), sink, shared) =>
      emit { u with sink, tally := { u.tally with fragments := u.tally.fragments + 1 } }
        shared blocks
    | (.error e, sink, shared) => (.error e, { u with sink }, shared)

variable [RecordSource ω σ]

/-- Read a record and write its blocks. Says whether there was a record. -/
def processOne (u : Unglom σ κ) (shared : ω) : Except PipelineError Bool × Unglom σ κ × ω :=
  match RecordSource.readOne u.source shared with
  | (.error e, source, shared) => (.error e, { u with source }, shared)
  | (.ok none, source, shared) => (.ok false, { u with source }, shared)
  | (.ok (some r), source, shared) =>
    let tally := { u.tally with
      records := u.tally.records + 1
      consumed := u.tally.consumed + if r.isGlomParameters then 1 else 0 }
    let expansion := r.expand u.options
    match emit { u with source, tally } shared expansion.blocks with
    | (.error e, u, shared) => (.error e, u, shared)
    | (.ok (), u, shared) =>
      match expansion.failure with
      | some e => (.error (.malformedRecord e), u, shared)
      | none => (.ok true, u, shared)

/-- Process records until there are no more; nothing if the first `limit` steps do not get
    there. -/
def steps : (limit : Nat) → Unglom σ κ → ω → Option (Except PipelineError Unit × Unglom σ κ × ω)
  | 0, _, _ => none
  | limit + 1, u, shared =>
    match u.processOne shared with
    | (.ok true, u, shared) => steps limit u shared
    | (.ok false, u, shared) => some (.ok (), u, shared)
    | (.error e, u, shared) => some (.error e, u, shared)

/-- Flush the sink once all records have been processed. -/
def conclude : Except PipelineError Unit × Unglom σ κ × ω →
    Except PipelineError UnglomTally × Unglom σ κ × ω
  | (.error e, u, shared) => (.error e, u, shared)
  | (.ok (), u, shared) =>
    match RecordSink.flush u.sink shared with
    | (.ok (), sink, shared) => (.ok u.tally, { u with sink }, shared)
    | (.error e, sink, shared) => (.error e, { u with sink }, shared)

/-- Process all records in at most `limit` steps. -/
def runWithin (limit : Nat) (u : Unglom σ κ) (shared : ω) :
    Option (Except PipelineError UnglomTally × Unglom σ κ × ω) :=
  (steps limit u shared).map conclude

end Steps

section Run

variable [RecordSink ω κ] [FiniteSource ω σ]

omit [FiniteSource ω σ] in
theorem source_emit (u : Unglom σ κ) (shared : ω) (blocks : List (FragmentHeader × Bytes)) :
    (u.emit shared blocks).2.1.source = u.source := by
  induction blocks generalizing u shared with
  | nil => rfl
  | cons block blocks ih =>
    obtain ⟨header, payload⟩ := block
    unfold emit
    split
    · exact ih _ _
    · rfl

theorem supply_processOne_lt {u u' : Unglom σ κ} {shared shared' : ω}
    (h : u.processOne shared = (.ok true, u', shared')) :
    FiniteSource.supply ω u'.source < FiniteSource.supply ω u.source := by
  unfold processOne at h
  split at h
  · simp at h
  · simp at h
  · rename_i r source shared₁ hread
    have hlt := FiniteSource.supply_lt hread
    dsimp only at h
    split at h
    · simp at h
    · rename_i u₁ shared₂ hemit
      have hsource := congrArg (fun x => x.2.1.source) hemit
      rw [source_emit] at hsource
      dsimp only at hsource
      split at h
      · simp at h
      · simp only [Prod.mk.injEq, true_and] at h
        obtain ⟨rfl, -⟩ := h
        rw [← hsource]
        exact hlt

theorem isSome_steps (limit : Nat) (u : Unglom σ κ) (shared : ω)
    (h : FiniteSource.supply ω u.source < limit) : (steps limit u shared).isSome := by
  induction limit generalizing u shared with
  | zero => omega
  | succ limit ih =>
    unfold steps
    split
    · rename_i u' shared' heq
      exact ih u' shared' (by have := supply_processOne_lt heq; omega)
    · rfl
    · rfl

theorem isSome_runWithin (u : Unglom σ κ) (shared : ω) :
    (u.runWithin (FiniteSource.supply ω u.source + 1) shared).isSome := by
  unfold runWithin
  rw [Option.isSome_map]
  exact isSome_steps _ u shared (by omega)

/-- Process all records of a source that cannot hand out records for ever. -/
def run (u : Unglom σ κ) (shared : ω) : Except PipelineError UnglomTally × Unglom σ κ × ω :=
  (u.runWithin (FiniteSource.supply ω u.source + 1) shared).get (isSome_runWithin u shared)

end Run

end Unglom

end DaqStream
