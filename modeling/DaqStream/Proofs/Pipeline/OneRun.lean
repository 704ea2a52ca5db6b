import DaqStream.Proofs.Pipeline.Cycle
import DaqStream.Proofs.Record.Kind
import DaqStream.Proofs.Run.Stretch

/-!
# One run out of a stream

A pipeline that watches for abnormal ends, lets through one run and counts what it writes makes
one stretch of its records: it drops what comes before the first begin and stops at the last
end, at a contradiction or at an abnormal end, whichever comes first. One lemma for each of
these says what the cycle does at a position (`At`), and `At.cycles` follows the positions to
the end.
-/

namespace DaqStream

open RunBarrier OneRun

variable {ω χ π : Type}

namespace Filter

section OneRun

variable {b b' : RunBarrier} {counts : KindCounts} {r : Record} {w : ω}

/-- Filters that let through one run and ask for a flush at the mark of an abnormal end. -/
def oneRun (b : RunBarrier) (counts : KindCounts) : List (Filter χ) :=
  [.abnormalEnd, .oneShot b, .kindCount counts]

variable [CustomFilter ω χ]

theorem handleAll_oneRun_of_abnormal (hkind : r.kind = .abnormalEnd) :
    handleAll (oneRun b counts : List (Filter χ)) r w = (.ok (.flush r), oneRun b counts, w) := by
  simp only [oneRun, handleAll, handle, if_pos (RecordKind.family_eq_abnormalEnd.2 hkind)]

/-- The first filter takes no part in anything else. -/
theorem handleAll_oneRun (hkind : r.kind ≠ .abnormalEnd) :
    handleAll (oneRun b counts : List (Filter χ)) r w =
      match b.handle r with
      | (.ok (.emit r'), b') => (.ok (.emit r'), oneRun b' (counts.add r'), w)
      | (result, b') => (result, oneRun b' counts, w) := by
  simp only [oneRun, handleAll, handle, if_neg (RecordKind.family_eq_abnormalEnd.not.2 hkind)]
  obtain ⟨_ | _ | _ | _, b'⟩ := b.handle r <;> rfl

theorem anyComplete_oneRun :
    anyComplete w (oneRun b counts : List (Filter χ)) = b.complete := by
  simp [oneRun, anyComplete, isComplete]

end OneRun

end Filter

namespace Running

/-- A pipeline for one run has written these records; its barrier is `b`. -/
structure Wrote (w : ω) (b : RunBarrier) (records : List Record)
    (p : Running ω MemorySource MemorySink χ π) : Prop where
  shared : p.shared = w
  filters : ∃ counts, p.mediator.filters = Filter.oneRun b counts
  sink : p.mediator.sink.blocks.toList = records.map Record.encode

/-- The pipeline has gone through `rs` up to a position: what came before the first begin was
    dropped, the rest written. -/
structure At (w : ω) (b : RunBarrier) (rs : List Record) (j : Nat)
    (p : Running ω MemorySource MemorySink χ π) : Prop extends Wrote w b (stretch rs j) p where
  source : p.mediator.source.records = rs.drop j
  predicates : p.mediator.predicates = []
  tally : p.tally =
    { read := j, written := j - firstBegin rs, dropped := min (firstBegin rs) j, skipped := 0 }

namespace At

variable [CustomFilter ω χ] [CustomPredicate ω π] {w : ω} {b b' : RunBarrier} {n j : Nat}
  {rs : List Record} {r : Record} {p q : Running ω MemorySource MemorySink χ π}

theorem cycle_at_end (h : At w b rs rs.length p) :
    ∃ q, p.cycle = (.stop .finished, q) ∧ At w b rs rs.length q := by
  have hread := MemorySource.recordSource_readOne_of_nil
    (h.source.trans List.drop_length) p.shared
  exact ⟨_, cycle_of_read_end h.predicates hread,
    ⟨⟨h.shared, h.filters, h.sink⟩, h.source, h.predicates, h.tally⟩⟩

theorem cycle_of_abnormal (h : At w b rs j p) (hr : rs[j]? = some r)
    (hkind : r.kind = .abnormalEnd) :
    ∃ q, p.cycle = (.fail .abnormalEnd, q) ∧ Wrote w b (stretch rs j ++ [r]) q := by
  obtain ⟨counts, hfilters⟩ := h.filters
  have hread := MemorySource.recordSource_readOne_of_getElem? h.source hr p.shared
  have hhandle : Filter.handleAll p.mediator.filters r p.shared =
      (.ok (.flush r), Filter.oneRun b counts, p.shared) := by
    rw [hfilters]
    exact Filter.handleAll_oneRun_of_abnormal hkind
  refine ⟨_, cycle_of_flush h.predicates hread hhandle rfl, h.shared, ⟨counts, rfl⟩, ?_⟩
  show (p.mediator.sink.blocks.push r.encode).toList = _
  rw [Array.toList_push, h.sink, List.map_append]
  rfl

theorem cycle_of_error {e : PipelineError} (h : At w b rs j p) (hr : rs[j]? = some r)
    (hkind : r.kind ≠ .abnormalEnd) (hhandle : b.handle r = (.error e, b)) :
    ∃ q, p.cycle = (.fail e, q) ∧ Wrote w b (stretch rs j) q := by
  obtain ⟨counts, hfilters⟩ := h.filters
  have hread := MemorySource.recordSource_readOne_of_getElem? h.source hr p.shared
  have hall : Filter.handleAll p.mediator.filters r p.shared =
      (.error e, Filter.oneRun b counts, p.shared) := by
    rw [hfilters, Filter.handleAll_oneRun hkind, hhandle]
  exact ⟨_, cycle_of_filter_error h.predicates hread hall, h.shared, ⟨counts, rfl⟩, h.sink⟩

theorem cycle_of_drop (h : At w b rs j p) (hr : rs[j]? = some r)
    (hkind : r.kind ≠ .abnormalEnd) (hj : j < firstBegin rs)
    (hhandle : b.handle r = (.ok .drop, b)) (hopen : b.complete = false) :
    ∃ q, p.cycle = (.next, q) ∧ At w b rs (j + 1) q := by
  obtain ⟨counts, hfilters⟩ := h.filters
  have hread := MemorySource.recordSource_readOne_of_getElem? h.source hr p.shared
  have hall : Filter.handleAll p.mediator.filters r p.shared =
      (.ok .drop, Filter.oneRun b counts, p.shared) := by
    rw [hfilters, Filter.handleAll_oneRun hkind, hhandle]
  have hcycle := Running.cycle_of_drop h.predicates hread hall
  rw [Filter.anyComplete_oneRun, hopen, if_neg Bool.false_ne_true] at hcycle
  refine ⟨_, hcycle, ⟨⟨h.shared, ⟨counts, rfl⟩, ?_⟩, rfl, h.predicates, ?_⟩⟩
  · show p.mediator.sink.blocks.toList = _
    rw [h.sink, stretch_of_le (Nat.le_of_lt hj), stretch_of_le hj]
  · simp only [h.tally, Tally.mk.injEq, true_and, and_true]
    omega

theorem cycle_of_emit (h : At w b rs j p) (hr : rs[j]? = some r)
    (hkind : r.kind ≠ .abnormalEnd) (hj : firstBegin rs ≤ j)
    (hhandle : b.handle r = (.ok (.emit r), b')) :
    ∃ q, p.cycle = (if b'.complete then .stop .finished else .next, q) ∧
      At w b' rs (j + 1) q := by
  obtain ⟨counts, hfilters⟩ := h.filters
  have hread := MemorySource.recordSource_readOne_of_getElem? h.source hr p.shared
  have hall : Filter.handleAll p.mediator.filters r p.shared =
      (.ok (.emit r), Filter.oneRun b' (counts.add r), p.shared) := by
    rw [hfilters, Filter.handleAll_oneRun hkind, hhandle]
  have hcycle := Running.cycle_of_emit h.predicates hread hall rfl
  rw [Filter.anyComplete_oneRun] at hcycle
  refine ⟨_, hcycle, ⟨⟨h.shared, ⟨_, rfl⟩, ?_⟩, rfl, h.predicates, ?_⟩⟩
  · show (p.mediator.sink.blocks.push r.encode).toList = _
    rw [Array.toList_push, h.sink, stretch_succ hr hj, List.map_append]
    rfl
  · simp only [h.tally, Tally.mk.injEq, true_and, and_true]
    omega

end At

/-- How the cycles of a pipeline for one run of `n` producers end. -/
inductive Ended (n : Nat) (rs : List Record) (w : ω) :
    Except PipelineError MediatorState → Running ω MemorySource MemorySink χ π → Prop
  | whole {b : RunBarrier} {q : Running ω MemorySource MemorySink χ π} :
      lastEnd rs (max n 1) < firstAbnormal rs →
      lastEnd rs (max n 1) < contradiction rs (max n 1) →
      At w b rs (lastEnd rs (max n 1) + 1) q → Ended n rs w (.ok .finished) q
  | contradicted {cause : TransitionError} {b : RunBarrier}
      {q : Running ω MemorySource MemorySink χ π} :
      contradiction rs (max n 1) < firstAbnormal rs →
      contradiction rs (max n 1) ≤ lastEnd rs (max n 1) →
      Wrote w b (stretch rs (contradiction rs (max n 1))) q →
      Ended n rs w (.error (.unexpectedTransition cause)) q
  | abnormal {b : RunBarrier} {r : Record} {q : Running ω MemorySource MemorySink χ π} :
      rs[firstAbnormal rs]? = some r →
      firstAbnormal rs ≤ contradiction rs (max n 1) →
      firstAbnormal rs ≤ lastEnd rs (max n 1) →
      Wrote w b (stretch rs (firstAbnormal rs) ++ [r]) q → Ended n rs w (.error .abnormalEnd) q
  | exhausted {b : RunBarrier} {q : Running ω MemorySource MemorySink χ π} :
      rs.length ≤ firstAbnormal rs → rs.length ≤ contradiction rs (max n 1) →
      rs.length ≤ lastEnd rs (max n 1) →
      At w b rs rs.length q → Ended n rs w (.ok .finished) q

/-- From a position before all of those at which it could stop, a run goes on to the first of
    them. -/
theorem At.cycles [CustomFilter ω χ] [CustomPredicate ω π] {w : ω} {b : RunBarrier} {n : Nat}
    {rs : List Record} {limit : Nat} {j : Nat} {outcome : Except PipelineError MediatorState}
    {p q : Running ω MemorySource MemorySink χ π} (h : At w b rs j p) (hstands : Stands n rs j b)
    (hlength : j ≤ rs.length) (habnormal : j ≤ firstAbnormal rs)
    (hcontra : j ≤ contradiction rs (max n 1)) (hend : j ≤ lastEnd rs (max n 1))
    (hrun : p.cycles limit = some (outcome, q)) : Ended n rs w outcome q := by
  induction limit generalizing p b j with
  | zero => simp [Running.cycles] at hrun
  | succ limit ih =>
    rw [Running.cycles] at hrun
    cases hr : rs[j]? with
    | none =>
      obtain rfl : j = rs.length := Nat.le_antisymm hlength (List.getElem?_eq_none_iff.1 hr)
      obtain ⟨last, hcycle, hlast⟩ := h.cycle_at_end
      rw [hcycle] at hrun
      cases hrun
      exact .exhausted habnormal hcontra hend hlast
    | some r =>
      have hlt : j < rs.length := (List.getElem?_eq_some_iff.1 hr).1
      by_cases hkind : r.kind = .abnormalEnd
      · obtain rfl : firstAbnormal rs = j := (firstAbnormal_eq_iff hr habnormal).2 hkind
        obtain ⟨last, hcycle, hlast⟩ := h.cycle_of_abnormal hr hkind
        rw [hcycle] at hrun
        cases hrun
        exact .abnormal hr hcontra hend hlast
      have habnormal' : j < firstAbnormal rs :=
        Nat.lt_of_le_of_ne habnormal
          (Ne.symm ((firstAbnormal_eq_iff hr habnormal).not.2 hkind))
      by_cases hhere : contradiction rs (max n 1) = j
      · subst hhere
        obtain ⟨cause, hhandle⟩ := hstands.handle_contradiction hr rfl
        obtain ⟨last, hcycle, hlast⟩ := h.cycle_of_error hr hkind hhandle
        rw [hcycle] at hrun
        cases hrun
        exact .contradicted habnormal' hend hlast
      have hcontra' : j < contradiction rs (max n 1) :=
        Nat.lt_of_le_of_ne hcontra (Ne.symm hhere)
      by_cases hbegun : firstBegin rs ≤ j
      · obtain ⟨b', hhandle, hcomplete, hnext⟩ := hstands.passesOn hr hbegun hcontra' hend
        obtain ⟨next, hcycle, hat⟩ := h.cycle_of_emit hr hkind hbegun hhandle
        rw [hcycle] at hrun
        by_cases hlastEnd : lastEnd rs (max n 1) = j
        · rw [if_pos (hcomplete.2 hlastEnd)] at hrun
          cases hrun
          subst hlastEnd
          exact .whole habnormal' hcontra' hat
        · have hopen : b'.complete = false := by simpa using hcomplete.not.2 hlastEnd
          rw [if_neg (by simp [hopen])] at hrun
          exact ih hat (hnext hopen) hlt habnormal' hcontra'
            (Nat.lt_of_le_of_ne hend (Ne.symm hlastEnd)) hrun
      · have hbefore : j < firstBegin rs := Nat.lt_of_not_le hbegun
        obtain ⟨hhandle, hstands'⟩ := hstands.handle_before hr hbefore
        obtain ⟨next, hcycle, hat⟩ :=
          h.cycle_of_drop hr hkind hbefore hhandle hstands.complete_eq_false
        rw [hcycle] at hrun
        -- The last end comes at the earliest with the first begin.
        have hend' : j < lastEnd rs (max n 1) := by
          refine Nat.lt_of_le_of_ne hend fun hlastEnd => ?_
          exact hbegun ((lastEnd_eq_iff hr hend).1 hlastEnd.symm).1
        exact ih hat hstands' hlt habnormal' hcontra' hend' hrun

namespace Wrote

variable [CustomFilter ω χ] {w : ω} {b : RunBarrier} {records : List Record}
  {q : Running ω MemorySource MemorySink χ π}

theorem close (h : Wrote w b records q) : q.close = (.ok (), q) := by
  obtain ⟨counts, hfilters⟩ := h.filters
  have hfinish : Filter.finishAll q.mediator.filters q.shared =
      (.ok (), q.mediator.filters, q.shared) := by
    rw [hfilters]
    rfl
  rw [close_eq hfinish rfl]
  rfl

theorem conclude_ok (h : Wrote w b records q) (state : MediatorState) :
    Mediator.conclude (.ok state) q =
      (.ok { toTally := q.tally, state }, { q.mediator with state }, w) := by
  rw [Mediator.conclude_ok_of_close_ok (by rw [h.close]), h.close, h.shared]

theorem conclude_error (h : Wrote w b records q) (e : PipelineError) :
    Mediator.conclude (.error e) q = (.error e, { q.mediator with state := .aborted }, w) := by
  rw [Mediator.conclude_error, h.close, h.shared]

end Wrote

end Running

namespace Mediator

open Running

variable [CustomFilter ω χ] [CustomPredicate ω π]

/-- A pipeline that lets through one run of `n` producers. -/
def oneRun (n : Nat) (rs : List Record) : Mediator MemorySource MemorySink χ π where
  source := { records := rs }
  sink := {}
  filters := Filter.oneRun (.ofRunTransitions n) {}

theorem start_oneRun (n : Nat) (rs : List Record) (w : ω) :
    ∃ p, (oneRun n rs : Mediator MemorySource MemorySink χ π).start w = (.ok (), p) ∧
      At w (.ofRunTransitions n) rs 0 p := by
  refine ⟨_, rfl, ⟨rfl, ⟨_, rfl⟩, ?_⟩, rfl, rfl, ?_⟩
  · rw [stretch_of_le (Nat.zero_le _)]
    rfl
  · rw [Nat.zero_sub, Nat.min_zero]

/-- The pipeline writes one stretch of its records. It begins with the first begin, and what comes
    first decides how it ends: with the last end the run is over and the rest stays unread; at a
    contradiction the run is aborted; an abnormal end is written, by itself if nothing has begun,
    and the run is aborted. Otherwise the run ends with the records. -/
theorem run_oneRun (n : Nat) (rs : List Record) (w : ω) :
    ∃ (result : Except PipelineError RunSummary) (m : Mediator MemorySource MemorySink χ π),
      (oneRun n rs : Mediator MemorySource MemorySink χ π).run w = (result, m, w) ∧
      if lastEnd rs (max n 1) < firstAbnormal rs ∧
          lastEnd rs (max n 1) < contradiction rs (max n 1) then
        result = .ok {
          read := lastEnd rs (max n 1) + 1
          written := lastEnd rs (max n 1) + 1 - firstBegin rs
          dropped := firstBegin rs
          skipped := 0
          state := .finished } ∧
        m.state = .finished ∧
        m.sink.blocks.toList = (stretch rs (lastEnd rs (max n 1) + 1)).map Record.encode ∧
        m.source.records = rs.drop (lastEnd rs (max n 1) + 1)
      else if contradiction rs (max n 1) < firstAbnormal rs then
        (∃ cause, result = .error (.unexpectedTransition cause)) ∧
        m.state = .aborted ∧
        m.sink.blocks.toList = (stretch rs (contradiction rs (max n 1))).map Record.encode
      else if firstAbnormal rs < rs.length then
        result = .error .abnormalEnd ∧
        m.state = .aborted ∧
        m.sink.blocks.toList = ((rs.take (firstAbnormal rs + 1)).drop
          (min (firstBegin rs) (firstAbnormal rs))).map Record.encode
      else
        result = .ok {
          read := rs.length
          written := rs.length - firstBegin rs
          dropped := firstBegin rs
          skipped := 0
          state := .finished } ∧
        m.state = .finished ∧
        m.sink.blocks.toList = (rs.drop (firstBegin rs)).map Record.encode := by
  obtain ⟨p, hstart, hat⟩ := start_oneRun (χ := χ) (π := π) n rs w
  have hsome := runWithin_supply (oneRun n rs : Mediator MemorySource MemorySink χ π) w
  rcases runWithin_eq_some.1 hsome with ⟨e, p', hfailed, -⟩ |
    ⟨p', outcome, q, hp, hcycles, hrun⟩
  · rw [hstart] at hfailed
    cases hfailed
  · rw [hstart] at hp
    cases hp
    have hended := hat.cycles (.before (Nat.zero_le _)) (Nat.zero_le _) (Nat.zero_le _)
      (Nat.zero_le _) (Nat.zero_le _) hcycles
    cases hended with
    | whole habnormal hcontra hlast =>
      rw [hlast.conclude_ok] at hrun
      have hlength : lastEnd rs (max n 1) < rs.length :=
        Nat.lt_of_lt_of_le habnormal (firstIndex_le_length rs)
      have hbegun := Nat.le_succ_of_le (firstBegin_le_lastEnd hlength)
      refine ⟨_, _, hrun, ?_⟩
      rw [if_pos ⟨habnormal, hcontra⟩]
      refine ⟨?_, rfl, hlast.sink, hlast.source⟩
      rw [hlast.tally, Nat.min_eq_left hbegun]
    | contradicted habnormal hend hlast =>
      rw [hlast.conclude_error] at hrun
      refine ⟨_, _, hrun, ?_⟩
      rw [if_neg (fun h => Nat.not_lt_of_le hend h.2), if_pos habnormal]
      exact ⟨⟨_, rfl⟩, rfl, hlast.sink⟩
    | abnormal hr hcontra hend hlast =>
      rw [hlast.conclude_error] at hrun
      refine ⟨_, _, hrun, ?_⟩
      rw [if_neg (fun h => Nat.not_lt_of_le hend h.1), if_neg (Nat.not_lt_of_le hcontra),
        if_pos (List.getElem?_eq_some_iff.1 hr).1, ← stretch_concat hr]
      exact ⟨rfl, rfl, hlast.sink⟩
    | exhausted habnormal hcontra hend hlast =>
      rw [hlast.conclude_ok] at hrun
      have hnone : firstAbnormal rs = rs.length :=
        Nat.le_antisymm (firstIndex_le_length rs) habnormal
      refine ⟨_, _, hrun, ?_⟩
      rw [if_neg (fun h => Nat.not_lt_of_le hend (hnone ▸ h.1)),
        if_neg (fun h => Nat.not_lt_of_le hcontra (hnone ▸ h)), if_neg (Nat.not_lt_of_le habnormal)]
      have hbegun : firstBegin rs ≤ rs.length := firstIndex_le_length rs
      refine ⟨?_, rfl, ?_⟩
      · rw [hlast.tally, Nat.min_eq_left hbegun]
      · rw [hlast.sink, stretch, List.take_length]

/-- Two producers and a third that is late, with data before, during and after the run. -/
def lateProducer : List Record :=
  let event := Record.assemble .v11 none (.physicsEvent [1])
  let change (kind : RecordKind) (runNumber : UInt32) :=
    Record.assemble .v11 none (.stateChange { kind, runNumber })
  [event, change .beginRun 5, event, change .beginRun 5, change .endRun 5, event,
    change .endRun 5, event, change .beginRun 6]

example : firstBegin lateProducer = 1 ∧ lastEnd lateProducer 2 = 6 ∧
    contradiction lateProducer 2 = 8 := by
  decide

example : contradiction lateProducer 1 = 3 := by decide

end Mediator

end DaqStream
