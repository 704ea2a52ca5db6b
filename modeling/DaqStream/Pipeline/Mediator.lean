import DaqStream.Filter.Basic
import DaqStream.Predicate.Basic
import DaqStream.Transport.Source
import DaqStream.Transport.Sink

/-!
# The main loop

A mediator moves records from a source through filters to a sink, steered by predicates. A
cycle asks the predicates, reads a record, asks again, runs the filters, asks twice more and
writes. A run prepares the filters, makes cycles until one of them ends the run, then closes
the filters and flushes the sink.

`runWithin` makes at most a given number of cycles, for sources of any kind; `run` needs no
such number for a source that cannot hand out records for ever.
-/

namespace DaqStream

/-- Where a mediator stands. -/
inductive MediatorState where
  | idle
  | running
  /-- Stopped by a predicate or an error. -/
  | aborted
  /-- The source was exhausted, or a filter had seen all it needs. -/
  | finished
  deriving DecidableEq, Repr

namespace MediatorState

/-- The name of a state. -/
def name : MediatorState → String
  | idle => "idle"
  | running => "running"
  | aborted => "aborted"
  | finished => "finished"

end MediatorState

/-- What became of the records of a run. -/
structure Tally where
  read : Nat := 0
  written : Nat := 0
  /-- Dropped by a filter. -/
  dropped : Nat := 0
  /-- Skipped by a predicate. -/
  skipped : Nat := 0
  deriving DecidableEq, Repr

/-- What a run did, and how it ended. -/
structure RunSummary extends Tally where
  state : MediatorState
  deriving DecidableEq, Repr

/-- A source, a sink, and what lies between them. -/
structure Mediator (σ κ χ π : Type) where
  source : σ
  sink : κ
  filters : List (Filter χ) := []
  predicates : List (Predicate π) := []
  state : MediatorState := .idle

/-- A mediator in the middle of a run. -/
structure Running (ω σ κ χ π : Type) where
  mediator : Mediator σ κ χ π
  /-- What the parts of the pipeline share. -/
  shared : ω
  tally : Tally := {}

/-- How a cycle ends. -/
inductive CycleEnd where
  | next
  | stop (state : MediatorState)
  | fail (error : PipelineError)
  deriving DecidableEq, Repr

namespace Running

variable {ω σ κ χ π : Type} [RecordSource ω σ] [RecordSink ω κ] [CustomFilter ω χ]
  [CustomPredicate ω π]

/-- Ask the predicates. -/
def ask (p : Running ω σ κ χ π) (point : Checkpoint) : Verdict × Running ω σ κ χ π :=
  match Predicate.judgeAll p.mediator.predicates point p.shared with
  | (verdict, predicates, shared) =>
    (verdict, { p with mediator := { p.mediator with predicates }, shared })

/-- Read a record. -/
def read (p : Running ω σ κ χ π) :
    Except PipelineError (Option Record) × Running ω σ κ χ π :=
  match RecordSource.readOne p.mediator.source p.shared with
  | (result, source, shared) =>
    (result, { p with mediator := { p.mediator with source }, shared })

/-- Run the filters. -/
def filter (p : Running ω σ κ χ π) (r : Record) :
    Except PipelineError FilterOutput × Running ω σ κ χ π :=
  match Filter.handleAll p.mediator.filters r p.shared with
  | (result, filters, shared) =>
    (result, { p with mediator := { p.mediator with filters }, shared })

/-- Write a record. -/
def write (p : Running ω σ κ χ π) (r : Record) : Except PipelineError Unit × Running ω σ κ χ π :=
  match RecordSink.put p.mediator.sink r.encode p.shared with
  | (.ok (), sink, shared) =>
    (.ok (), { p with mediator := { p.mediator with sink }, shared,
                      tally := { p.tally with written := p.tally.written + 1 } })
  | (.error e, sink, shared) =>
    (.error e, { p with mediator := { p.mediator with sink }, shared })

/-- How a cycle ends that nothing has stopped: the run is over once a filter has seen all
    it needs. -/
def afterWrite (p : Running ω σ κ χ π) : CycleEnd :=
  if Filter.anyComplete p.shared p.mediator.filters then .stop .finished else .next

/-- How a cycle ends after the last checkpoint. -/
def conclude (p : Running ω σ κ χ π) (last : Verdict) : CycleEnd :=
  if last = .abort then .stop .aborted else p.afterWrite

/-- Write a record unless a predicate stops or skips it. A stop at the last checkpoint comes
    after the write. -/
def output (p : Running ω σ κ χ π) (r : Record) : CycleEnd × Running ω σ κ χ π :=
  match p.ask (.preOutput r.kind) with
  | (.abort, p) => (.stop .aborted, p)
  | (before, p) =>
    match p.ask (.postOutput r.kind) with
    | (last, p) =>
      if before = .skip ∨ last = .skip then
        let p := { p with tally := { p.tally with skipped := p.tally.skipped + 1 } }
        (p.conclude last, p)
      else match p.write r with
        | (.error e, p) => (.fail e, p)
        | (.ok (), p) => (p.conclude last, p)

/-- Run the filters on a record and go on with what they let through. A record that is to be
    flushed is written at once, whatever the predicates would say, and ends the run. -/
def transform (p : Running ω σ κ χ π) (r : Record) : CycleEnd × Running ω σ κ χ π :=
  match p.filter r with
  | (.error e, p) => (.fail e, p)
  | (.ok (.emit r'), p) => p.output r'
  | (.ok .drop, p) =>
    let p := { p with tally := { p.tally with dropped := p.tally.dropped + 1 } }
    (p.afterWrite, p)
  | (.ok (.flush r'), p) =>
    match p.write r' with
    | (.error e, p) => (.fail e, p)
    | (.ok (), p) => (.fail .abnormalEnd, p)

/-- Read a record and go on with it unless a predicate stops or skips it. -/
def input (p : Running ω σ κ χ π) : CycleEnd × Running ω σ κ χ π :=
  match p.read with
  | (.error e, p) => (.fail e, p)
  | (.ok none, p) => (.stop .finished, p)
  | (.ok (some r), p) =>
    let p := { p with tally := { p.tally with read := p.tally.read + 1 } }
    match p.ask (.postInput r.kind) with
    | (.abort, p) => (.stop .aborted, p)
    | (.skip, p) => (.next, { p with tally := { p.tally with skipped := p.tally.skipped + 1 } })
    | (.proceed, p) => p.transform r

/-- One cycle. Before a record is read, a skip means nothing. -/
def cycle (p : Running ω σ κ χ π) : CycleEnd × Running ω σ κ χ π :=
  match p.ask .preInput with
  | (.abort, p) => (.stop .aborted, p)
  | (_, p) => p.input

/-- Cycles until one of them ends the run; nothing if none of the first `limit` does. -/
def cycles : (limit : Nat) → Running ω σ κ χ π →
    Option (Except PipelineError MediatorState × Running ω σ κ χ π)
  | 0, _ => none
  | limit + 1, p =>
    match p.cycle with
    | (.next, p) => cycles limit p
    | (.stop state, p) => some (.ok state, p)
    | (.fail e, p) => some (.error e, p)

/-- Close the filters and flush the sink. Both happen; a failure of the filters is the one
    that is reported. -/
def close (p : Running ω σ κ χ π) : Except PipelineError Unit × Running ω σ κ χ π :=
  match Filter.finishAll p.mediator.filters p.shared with
  | (closed, filters, shared) =>
    match RecordSink.flush p.mediator.sink shared with
    | (flushed, sink, shared) =>
      (match closed with | .ok () => flushed | .error e => .error e,
        { p with mediator := { p.mediator with filters, sink }, shared })

end Running

namespace Mediator

variable {ω σ κ χ π : Type}

section Run

variable [RecordSource ω σ] [RecordSink ω κ] [CustomFilter ω χ] [CustomPredicate ω π]

/-- Begin a run: take the predicates back to their beginning and prepare the filters. -/
def start (m : Mediator σ κ χ π) (shared : ω) :
    Except PipelineError Unit × Running ω σ κ χ π :=
  match Predicate.resetAll m.predicates shared with
  | (predicates, shared) =>
    match Filter.startAll m.filters shared with
    | (result, filters, shared) =>
      (result, { mediator := { m with predicates, filters, state := .running }, shared })

/-- End a run whose cycles ended with `outcome`. When they ended well but closing fails, the
    mediator is left as it was during the run. -/
def conclude (outcome : Except PipelineError MediatorState) (p : Running ω σ κ χ π) :
    Except PipelineError RunSummary × Mediator σ κ χ π × ω :=
  match p.close, outcome with
  | (.ok (), p), .ok state =>
    (.ok { toTally := p.tally, state }, { p.mediator with state }, p.shared)
  | (.error e, p), .ok _ => (.error e, p.mediator, p.shared)
  | (_, p), .error e => (.error e, { p.mediator with state := .aborted }, p.shared)

/-- A run of at most `limit` cycles: what it did, and the mediator and what it shares as they
    are afterwards; nothing if more cycles are needed. -/
def runWithin (limit : Nat) (m : Mediator σ κ χ π) (shared : ω) :
    Option (Except PipelineError RunSummary × Mediator σ κ χ π × ω) :=
  match m.start shared with
  | (.error e, p) => some (.error e, { p.mediator with state := .aborted }, p.shared)
  | (.ok (), p) => (p.cycles limit).map fun ended => conclude ended.1 ended.2

end Run

end Mediator

namespace Running

variable {ω σ κ χ π : Type} [FiniteSource ω σ] [RecordSink ω κ] [CustomFilter ω χ]
  [CustomPredicate ω π]

/-- What the source can still hand out. -/
def supply (p : Running ω σ κ χ π) : Nat := FiniteSource.supply ω p.mediator.source

omit [FiniteSource ω σ] [RecordSink ω κ] [CustomFilter ω χ] in
@[simp] theorem source_ask (p : Running ω σ κ χ π) (point : Checkpoint) :
    (p.ask point).2.mediator.source = p.mediator.source := by
  unfold ask; rfl

omit [FiniteSource ω σ] [RecordSink ω κ] [CustomPredicate ω π] in
@[simp] theorem source_filter (p : Running ω σ κ χ π) (r : Record) :
    (p.filter r).2.mediator.source = p.mediator.source := by
  unfold filter; rfl

omit [FiniteSource ω σ] [CustomFilter ω χ] [CustomPredicate ω π] in
@[simp] theorem source_write (p : Running ω σ κ χ π) (r : Record) :
    (p.write r).2.mediator.source = p.mediator.source := by
  unfold write; split <;> rfl

omit [FiniteSource ω σ] in
theorem source_output (p : Running ω σ κ χ π) (r : Record) :
    (p.output r).2.mediator.source = p.mediator.source := by
  have h₁ := source_ask p (.preOutput r.kind)
  unfold output
  split
  · rename_i p₁ heq; rw [heq] at h₁; exact h₁
  · rename_i before p₁ _ heq
    rw [heq] at h₁
    have h₂ := source_ask p₁ (.postOutput r.kind)
    split
    rename_i last p₂ heq₂
    rw [heq₂] at h₂
    split
    · exact h₂.trans h₁
    · have h₃ := source_write p₂ r
      split <;> (rename_i heq₃; rw [heq₃] at h₃; exact h₃.trans (h₂.trans h₁))

omit [FiniteSource ω σ] in
theorem source_transform (p : Running ω σ κ χ π) (r : Record) :
    (p.transform r).2.mediator.source = p.mediator.source := by
  have h₁ := source_filter p r
  unfold transform
  split
  · rename_i heq; rw [heq] at h₁; exact h₁
  · rename_i r' p₁ heq
    rw [heq] at h₁
    exact (source_output p₁ r').trans h₁
  · rename_i heq; rw [heq] at h₁; exact h₁
  · rename_i r' p₁ heq
    rw [heq] at h₁
    have h₂ := source_write p₁ r'
    split <;> (rename_i heq₂; rw [heq₂] at h₂; exact h₂.trans h₁)

/-- A cycle that does not end the run has taken a record from the source. -/
theorem supply_cycle_lt {p p' : Running ω σ κ χ π} (h : p.cycle = (.next, p')) :
    p'.supply < p.supply := by
  have h₁ := source_ask p .preInput
  unfold cycle at h
  split at h
  · simp at h
  · rename_i verdict p₁ _ heq
    rw [heq] at h₁
    unfold input at h
    split at h
    · simp at h
    · simp at h
    · rename_i r p₂ hread
      have hlt : p₂.supply < p₁.supply := by
        unfold read at hread
        split at hread
        rename_i result source shared hone
        simp only [Prod.mk.injEq] at hread
        obtain ⟨rfl, rfl⟩ := hread
        exact FiniteSource.supply_lt hone
      have hsame : p₁.supply = p.supply := by unfold supply; rw [h₁]
      dsimp only at h
      have h₂ := source_ask
        { p₂ with tally := { p₂.tally with read := p₂.tally.read + 1 } } (.postInput r.kind)
      split at h
      · simp at h
      · rename_i p₃ hask
        rw [hask] at h₂
        simp only [Prod.mk.injEq, true_and] at h
        subst h
        have : p₃.supply = p₂.supply := by unfold supply; rw [h₂]
        unfold supply at *
        dsimp only at *
        omega
      · rename_i p₃ hask
        rw [hask] at h₂
        have h₃ := source_transform p₃ r
        rw [h] at h₃
        have : p'.supply = p₂.supply := by unfold supply; rw [h₃, h₂]
        omega

/-- As many cycles as the source can hand out records, and one more, end every run. -/
theorem isSome_cycles (limit : Nat) (p : Running ω σ κ χ π) (h : p.supply < limit) :
    (p.cycles limit).isSome := by
  induction limit generalizing p with
  | zero => omega
  | succ limit ih =>
    unfold cycles
    split
    · rename_i p' heq
      exact ih p' (by have := supply_cycle_lt heq; omega)
    · rfl
    · rfl

end Running

namespace Mediator

variable {ω σ κ χ π : Type} [FiniteSource ω σ] [RecordSink ω κ] [CustomFilter ω χ]
  [CustomPredicate ω π]

omit [RecordSink ω κ] in
theorem supply_start (m : Mediator σ κ χ π) (shared : ω) :
    (m.start shared).2.supply = FiniteSource.supply ω m.source := by
  unfold start Running.supply
  rfl

theorem isSome_runWithin (m : Mediator σ κ χ π) (shared : ω) :
    (m.runWithin (FiniteSource.supply ω m.source + 1) shared).isSome := by
  have hsupply := supply_start m shared
  unfold runWithin
  split
  · rfl
  · rename_i p heq
    rw [heq] at hsupply
    rw [Option.isSome_map]
    exact Running.isSome_cycles _ p (by dsimp only at hsupply; omega)

/-- A run, for a source that cannot hand out records for ever. -/
def run (m : Mediator σ κ χ π) (shared : ω) :
    Except PipelineError RunSummary × Mediator σ κ χ π × ω :=
  (m.runWithin (FiniteSource.supply ω m.source + 1) shared).get (isSome_runWithin m shared)

end Mediator

end DaqStream
