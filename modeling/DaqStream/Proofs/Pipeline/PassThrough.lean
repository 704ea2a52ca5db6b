import DaqStream.Proofs.Pipeline.Cycle
import DaqStream.Proofs.Pipeline.Passive
import DaqStream.Proofs.Transport.Acceptance
import DaqStream.Proofs.Transport.Delivery

/-!
# From stream to stream

A pipeline without predicates, whose filters only look on, moves a stream of bytes to a
writer. A cycle takes one whole record off the front of the bytes that are still to come and
writes exactly its bytes (`Passing.cycle_of_ok`), so a run writes the longest beginning of the
stream that is made of whole records, and reports what stopped it there (`run_passing`).
-/

namespace DaqStream

open Delivery

variable {ω : Type}

theorem StreamSource.recordSource_readOne {s s' : StreamSource}
    {result : Except PipelineError (Option Record)} (h : s.readOne = (result, s')) (w : ω) :
    RecordSource.readOne s w = (result, s', w) := by
  show (s.readOne.1, s.readOne.2, w) = _
  rw [h]

theorem StreamSink.recordSink_put {s s' : StreamSink} {block : Bytes}
    (h : s.write block = (.ok (), s')) (w : ω) : RecordSink.put s block w = (.ok (), s', w) := by
  show ((s.write block).1.mapError PipelineError.transport, (s.write block).2, w) = _
  rw [h]
  rfl

theorem StreamSink.recordSink_flush {s s' : StreamSink} (h : s.flush = (.ok (), s')) (w : ω) :
    RecordSink.flush s w = (.ok (), s', w) := by
  show (s.flush.1.mapError PipelineError.transport, s.flush.2, w) = _
  rw [h]
  rfl

namespace Running

variable {χ π : Type}

/-- In the middle of a run from stream to stream, `bytes` are still to be read. -/
structure Passing (bytes : Bytes) (p : Running ω StreamSource StreamSink χ π) : Prop where
  source : Delivers p.mediator.source.pending bytes
  notAtEnd : p.mediator.source.atEnd = false
  sink : p.mediator.sink.Willing
  filters : ∀ f ∈ p.mediator.filters, f.Passive
  predicates : p.mediator.predicates = []

/-- Between `p` and `q` exactly these blocks were read and written. -/
structure PassedOn (blocks : List Bytes) (p q : Running ω StreamSource StreamSink χ π) : Prop where
  received : q.mediator.sink.received = p.mediator.sink.received ++ blocks.flatten
  flushes : q.mediator.sink.flushes = p.mediator.sink.flushes
  tally : q.tally = { p.tally with
    read := p.tally.read + blocks.length, written := p.tally.written + blocks.length }
  filters : ∀ f ∈ q.mediator.filters, f.Passive
  shared : q.shared = p.shared

theorem PassedOn.trans {blocks more : List Bytes} {p q s : Running ω StreamSource StreamSink χ π}
    (h : PassedOn blocks p q) (h' : PassedOn more q s) : PassedOn (blocks ++ more) p s where
  received := by rw [h'.received, h.received, List.flatten_append, List.append_assoc]
  flushes := h'.flushes.trans h.flushes
  tally := by
    rw [h'.tally, h.tally, List.length_append]
    simp only [Nat.add_assoc]
  filters := h'.filters
  shared := h'.shared.trans h.shared

namespace Passing

variable [CustomFilter ω χ] [CustomPredicate ω π] {bytes : Bytes}
  {p q : Running ω StreamSource StreamSink χ π}

/-- With nothing to come, a cycle ends the run in good order. -/
theorem cycle_of_nil (h : Passing [] p) :
    ∃ q, p.cycle = (.stop .finished, q) ∧ PassedOn [] p q := by
  obtain ⟨later, hread⟩ := StreamSource.readOne_of_delivers_nil h.notAtEnd h.source
  have hcycle := cycle_of_read_end h.predicates (StreamSource.recordSource_readOne hread p.shared)
  exact ⟨_, hcycle, ⟨(List.append_nil _).symm, rfl, rfl, h.filters, rfl⟩⟩

/-- Where no record can be read, a cycle ends the run with the reason. -/
theorem cycle_of_error {e : RecordError} (h : Passing bytes p) (hne : bytes ≠ [])
    (he : Record.decodeWithin p.mediator.source.version p.mediator.source.maxRecordSize bytes =
      .error e) :
    ∃ q, p.cycle = (.fail (.malformedRecord e), q) ∧ PassedOn [] p q := by
  obtain ⟨source, hread⟩ := StreamSource.readOne_of_decodeWithin_error h.notAtEnd h.source hne he
  have hcycle := cycle_of_read_error h.predicates
    (StreamSource.recordSource_readOne hread p.shared)
  exact ⟨_, hcycle, ⟨(List.append_nil _).symm, rfl, rfl, h.filters, rfl⟩⟩

/-- Otherwise a cycle moves the next record, byte for byte. -/
theorem cycle_of_ok {r : Record} {used : Nat} (h : Passing bytes p)
    (hr : Record.decodeWithin p.mediator.source.version p.mediator.source.maxRecordSize bytes =
      .ok (r, used)) :
    ∃ q, p.cycle = (.next, q) ∧ Passing (bytes.drop used) q ∧ PassedOn [bytes.take used] p q ∧
      q.mediator.source.version = p.mediator.source.version ∧
      q.mediator.source.maxRecordSize = p.mediator.source.maxRecordSize := by
  obtain ⟨later, hlater, hread⟩ := StreamSource.readOne_of_decodeWithin_ok h.notAtEnd h.source hr
  obtain ⟨fs, hhandle, hpassive⟩ := Filter.handleAll_of_forall fun f hf =>
    (h.filters f hf).handle r p.shared
  obtain ⟨sink, hwrite, hreceived, hflushes, hwilling⟩ :=
    StreamSink.write_of_willing h.sink r.encode
  have hcycle := cycle_of_emit h.predicates (StreamSource.recordSource_readOne hread p.shared)
    hhandle (StreamSink.recordSink_put hwrite p.shared)
  have hgoesOn : Filter.anyComplete p.shared fs = false :=
    Filter.anyComplete_of_forall fun f hf => (hpassive f hf).isComplete p.shared
  rw [hgoesOn, if_neg Bool.false_ne_true] at hcycle
  -- A record that was read keeps its bytes, so these are what is written.
  have hencode : r.encode = bytes.take used := by
    obtain ⟨block, rest, hsplit, hwire, rfl⟩ := Record.decodeWithin_eq_ok.1 hr
    obtain ⟨rfl, -, -⟩ := Record.splitWithin_eq_ok.1 hsplit
    rw [List.take_left, Record.encode_of_wire (Record.wire_of_decodeWire hwire)]
  refine ⟨_, hcycle, ⟨hlater, h.notAtEnd, hwilling, hpassive, h.predicates⟩,
    ⟨?_, hflushes, rfl, hpassive, rfl⟩, rfl, rfl⟩
  show sink.received = _
  rw [hreceived, hencode, List.flatten_singleton]

/-- Cycles move whole records, and end where there is none. -/
theorem cycles {limit : Nat} {outcome : Except PipelineError MediatorState} (h : Passing bytes p)
    (hrun : p.cycles limit = some (outcome, q)) :
    ∃ blocks rest, bytes = blocks.flatten ++ rest ∧
      (∀ block ∈ blocks, Record.IsWhole p.mediator.source.version
        p.mediator.source.maxRecordSize block) ∧
      PassedOn blocks p q ∧
      (rest = [] ∧ outcome = .ok .finished ∨
        rest ≠ [] ∧ ∃ e, Record.decodeWithin p.mediator.source.version
          p.mediator.source.maxRecordSize rest = .error e ∧
          outcome = .error (.malformedRecord e)) := by
  induction limit generalizing p bytes with
  | zero => simp [Running.cycles] at hrun
  | succ limit ih =>
    rw [Running.cycles] at hrun
    by_cases hne : bytes = []
    · subst hne
      obtain ⟨last, hcycle, hpassed⟩ := h.cycle_of_nil
      rw [hcycle] at hrun
      cases hrun
      exact ⟨[], [], rfl, by simp, hpassed, .inl ⟨rfl, rfl⟩⟩
    · cases hdecode : Record.decodeWithin p.mediator.source.version
        p.mediator.source.maxRecordSize bytes with
      | error e =>
        obtain ⟨last, hcycle, hpassed⟩ := h.cycle_of_error hne hdecode
        rw [hcycle] at hrun
        cases hrun
        exact ⟨[], bytes, rfl, by simp, hpassed, .inr ⟨hne, e, hdecode, rfl⟩⟩
      | ok parts =>
        obtain ⟨r, used⟩ := parts
        obtain ⟨next, hcycle, hnext, hpassed, hversion, hlimit⟩ := h.cycle_of_ok hdecode
        rw [hcycle] at hrun
        obtain ⟨blocks, rest, hrest, hwhole, hmore, hend⟩ := ih hnext hrun
        rw [hversion, hlimit] at hwhole hend
        have hfirst := Record.isWhole_take_of_decodeWithin hdecode
        refine ⟨bytes.take used :: blocks, rest, ?_, List.forall_mem_cons.2 ⟨hfirst, hwhole⟩,
          hpassed.trans hmore, hend⟩
        rw [List.flatten_cons, List.append_assoc, ← hrest, List.take_append_drop]

end Passing

/-- What was passed on stays passed on when the filters are closed and the sink is flushed. -/
theorem close_of_passedOn [CustomFilter ω χ] {blocks : List Bytes}
    {p q : Running ω StreamSource StreamSink χ π} (h : PassedOn blocks p q)
    (hflush : p.mediator.sink.flush.1 = .ok ()) :
    q.close.1 = .ok () ∧ q.close.2.tally = q.tally ∧ q.close.2.shared = p.shared ∧
      q.close.2.mediator.sink.received = p.mediator.sink.received ++ blocks.flatten ∧
      q.close.2.mediator.sink.flushes = p.mediator.sink.flush.2.flushes := by
  obtain ⟨fs, hfinish, -⟩ := Filter.finishAll_of_forall fun f hf => (h.filters f hf).finish q.shared
  have hresult : q.mediator.sink.flush.1 = .ok () := by
    rw [StreamSink.flush, h.flushes]
    exact hflush
  have hflushed : q.mediator.sink.flush = (.ok (), q.mediator.sink.flush.2) :=
    Prod.ext hresult rfl
  rw [close_eq hfinish (StreamSink.recordSink_flush hflushed q.shared)]
  refine ⟨rfl, rfl, h.shared, h.received, ?_⟩
  show (StreamSink.settle q.mediator.sink.flushes).2 = _
  rw [h.flushes]
  rfl

end Running

namespace Mediator

open Running

variable {χ π : Type} [CustomFilter ω χ] [CustomPredicate ω π]

/-- A pipeline that only looks on writes the longest beginning of its input that is made of
    whole records, byte for byte, and flushes the sink. If that is all of the input, it has read
    and written exactly these records; otherwise it stops with the error of what comes next. -/
theorem run_passing {m : Mediator StreamSource StreamSink χ π} {bytes : Bytes} (shared : ω)
    (hsource : Delivers m.source.pending bytes) (hend : m.source.atEnd = false)
    (hsink : m.sink.Willing) (hflush : m.sink.flush.1 = .ok ())
    (hfilters : ∀ f ∈ m.filters, f.Passive) (hpredicates : m.predicates = []) :
    ∃ (blocks : List Bytes) (rest : Bytes) (result : Except PipelineError RunSummary)
      (m' : Mediator StreamSource StreamSink χ π), m.run shared = (result, m', shared) ∧
      bytes = blocks.flatten ++ rest ∧
      (∀ block ∈ blocks, Record.IsWhole m.source.version m.source.maxRecordSize block) ∧
      (∀ others : List Bytes,
        (∀ block ∈ others, Record.IsWhole m.source.version m.source.maxRecordSize block) →
        others.flatten <+: bytes → others.flatten <+: blocks.flatten) ∧
      m'.sink.received = m.sink.received ++ blocks.flatten ∧
      m'.sink.flushes = m.sink.flush.2.flushes ∧
      (rest = [] ∧ m'.state = .finished ∧ result = .ok
          { read := blocks.length, written := blocks.length, dropped := 0, skipped := 0,
            state := .finished } ∨
        rest ≠ [] ∧ m'.state = .aborted ∧ ∃ e,
          Record.decodeWithin m.source.version m.source.maxRecordSize rest = .error e ∧
          result = .error (.malformedRecord e)) := by
  obtain ⟨fs, hstart, hpassive⟩ :=
    Filter.startAll_of_forall fun f hf => (hfilters f hf).start shared
  have hreset : Predicate.resetAll m.predicates shared = ([], shared) := by
    rw [hpredicates]
    rfl
  have hbegin := start_eq hreset hstart
  have hpassing : Passing bytes
      ({ mediator := { m with predicates := [], filters := fs, state := .running }, shared } :
        Running ω StreamSource StreamSink χ π) :=
    ⟨hsource, hend, hsink, hpassive, rfl⟩
  rcases runWithin_eq_some.1 (runWithin_supply m shared) with
    ⟨e, p, hfailed, -⟩ | ⟨p, outcome, q, hp, hcycles, hrun⟩
  · rw [hbegin] at hfailed
    cases hfailed
  · rw [hbegin] at hp
    cases hp
    obtain ⟨blocks, rest, hbytes, hwhole, hpassed, houtcome⟩ := hpassing.cycles hcycles
    obtain ⟨hclose, htally, hshared, hreceived, hflushes⟩ := close_of_passedOn hpassed hflush
    have hlongest : ∀ others : List Bytes,
        (∀ block ∈ others, Record.IsWhole m.source.version m.source.maxRecordSize block) →
        others.flatten <+: bytes → others.flatten <+: blocks.flatten := by
      intro others hothers hbeginning
      rw [hbytes] at hbeginning
      refine Record.flatten_prefix_of_stopped hwhole ?_ hothers hbeginning
      intro r used hr
      rcases houtcome with ⟨rfl, -⟩ | ⟨-, e, he, -⟩
      · cases hr
      · rw [he] at hr
        cases hr
    rcases houtcome with ⟨rfl, rfl⟩ | ⟨hne, e, he, rfl⟩
    · rw [conclude_ok_of_close_ok hclose, hshared, htally, hpassed.tally] at hrun
      refine ⟨blocks, [], _, _, hrun, hbytes, hwhole, hlongest, hreceived, hflushes, ?_⟩
      exact .inl ⟨rfl, rfl, by simp⟩
    · rw [conclude_error, hshared] at hrun
      refine ⟨blocks, rest, _, _, hrun, hbytes, hwhole, hlongest, hreceived, hflushes, ?_⟩
      exact .inr ⟨hne, rfl, e, he, rfl⟩

/-- A stream that is cut short, a writer that takes a few bytes at a time and is flushed at the
    second attempt, and onlookers in groups. -/
def cutShortPipeline : Mediator StreamSource StreamSink Empty Empty where
  source := { pending := StreamSource.cutShortPieces, version := .v10, maxRecordSize := 16 }
  sink := {
    acceptances := [.upTo 4, .failure ⟨.wouldBlock, "would block"⟩, .upTo 2]
    flushes := [some ⟨.interrupted, "interrupted"⟩, none] }
  filters := [.chain [.transparent, .kindCount {}], .chain [], .kindCount {}]

theorem run_passing_cutShort :
    Delivers cutShortPipeline.source.pending StreamSource.cutShort ∧
      cutShortPipeline.sink.Willing ∧ cutShortPipeline.sink.flush.1 = .ok () ∧
      (∀ f ∈ cutShortPipeline.filters, f.Passive) ∧
      ∃ m', cutShortPipeline.run () = (.error (.malformedRecord (.truncated 8 2)), m', ()) ∧
        m'.state = .aborted ∧ m'.sink.received = StreamSource.cutShort.take 9 ∧
        m'.sink.flushes = [] := by
  have hsource : Delivers cutShortPipeline.source.pending StreamSource.cutShort :=
    .failure rfl (.chunk (by simp) (.failure rfl (.chunk (by simp) (.chunk (by simp) .done))))
  have hsink : cutShortPipeline.sink.Willing := by
    simp [StreamSink.Willing, cutShortPipeline, Acceptance.IsWilling, IoError.isTransient]
  have hfilters : ∀ f ∈ cutShortPipeline.filters, f.Passive := by
    have hgroup : ∀ f ∈ ([.transparent, .kindCount {}] : List (Filter Empty)), f.Passive := by
      simp [Filter.Passive.transparent, Filter.Passive.kindCount]
    simp only [cutShortPipeline, List.forall_mem_cons]
    exact ⟨.chain hgroup, .chain (by simp), .kindCount {}, by simp⟩
  obtain ⟨blocks, rest, result, m', hrun, hbytes, hwhole, hlongest, hreceived, hflushes, hend⟩ :=
    run_passing () hsource rfl hsink rfl hfilters rfl
  have hevent : Record.IsWhole .v10 16 (StreamSource.cutShort.take 9) := ⟨_, rfl⟩
  -- The event is a whole record, and there is no room for another.
  obtain ⟨rfl, rfl⟩ : blocks = [StreamSource.cutShort.take 9] ∧ rest = [5, 0] := by
    cases blocks with
    | nil =>
      have hnone := hlongest [StreamSource.cutShort.take 9] (List.forall_mem_singleton.2 hevent)
        (by decide)
      simp [StreamSource.cutShort] at hnone
    | cons block blocks =>
      have hblock := (Record.isWhole_iff.1 (hwhole block (by simp))).1
      have hfirst := (Record.isWhole_iff.1 hevent).1
      have hboth : block ++ (blocks.flatten ++ rest) =
          StreamSource.cutShort.take 9 ++ StreamSource.cutShort.drop 9 := by
        rw [List.take_append_drop, hbytes, List.flatten_cons, List.append_assoc]
      obtain ⟨rfl, hafter⟩ := hblock.append_inj hfirst hboth
      cases blocks with
      | nil => exact ⟨rfl, hafter⟩
      | cons another blocks =>
        have hheader := (Record.isWhole_iff.1 (hwhole another (by simp))).1.header
        have hlen := congrArg List.length hafter
        simp only [List.flatten_cons, List.length_append, List.length_drop] at hlen
        simp only [recordHeaderSize] at hheader
        have htotal : StreamSource.cutShort.length = 11 := rfl
        omega
  rcases hend with ⟨hnil, -⟩ | ⟨-, haborted, e, he, rfl⟩
  · cases hnil
  · cases he
    exact ⟨hsource, hsink, rfl, hfilters, m', hrun, haborted, hreceived, hflushes⟩

end Mediator

end DaqStream
