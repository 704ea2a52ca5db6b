import DaqStream.Filter.KindCounts
import DaqStream.Pipeline.Error

/-!
# Filters

A filter sees one record at a time and decides what flows on. Its state is part of its value:
every step gives the filter as it is afterwards. A chain is a filter too: each member sees
what the member before it let through, and the first member that drops a record, asks for
a flush or fails decides for the chain.

`χ` are filters of the caller's own, which may do anything a filter can do; `ω` is whatever
the parts of a pipeline share and may change.
-/

namespace DaqStream

/-- What a filter decides for a record. -/
inductive FilterOutput where
  /-- This record flows on. -/
  | emit (r : Record)
  /-- Nothing flows on. -/
  | drop
  /-- This record is written at once, and then the pipeline stops. -/
  | flush (r : Record)

/-- What filters of the caller's own do. -/
class CustomFilter (ω χ : Type) where
  /-- Called once before the first record of a run. -/
  start : χ → ω → Except PipelineError Unit × χ × ω
  /-- Called for every record that reaches the filter. -/
  handle : χ → Record → ω → Except PipelineError FilterOutput × χ × ω
  /-- Called once after the last record of a run. -/
  finish : χ → ω → Except PipelineError Unit × χ × ω
  /-- Whether the pipeline can stop after the current record. -/
  isComplete : χ → ω → Bool

instance (ω : Type) : CustomFilter ω Empty where
  start f := nomatch f
  handle f := nomatch f
  finish f := nomatch f
  isComplete f := nomatch f

/-- A filter, together with its state. -/
inductive Filter (χ : Type) where
  /-- Lets everything through. -/
  | transparent
  /-- Asks for a flush at the mark of an abnormal end. -/
  | abnormalEnd
  /-- Counts what it lets through, which is everything. -/
  | kindCount (counts : KindCounts)
  /-- Lets exactly one run through. -/
  | oneShot (barrier : RunBarrier)
  /-- Several filters, one after the other. -/
  | chain (members : List (Filter χ))
  /-- A filter of the caller's own. -/
  | custom (f : χ)

namespace RunBarrier

/-- Nothing flows on while no begin has been seen. -/
def verdict (b : RunBarrier) (r : Record) : FilterOutput :=
  if b.waiting then .drop else .emit r

/-- What a barrier decides for a record: run transitions are counted, and everything before
    the first begin is dropped. -/
def handle (b : RunBarrier) (r : Record) : Except PipelineError FilterOutput × RunBarrier :=
  match r.body with
  | .stateChange change =>
    match b.update change.kind change.runNumber with
    | .ok b' => (.ok (b'.verdict r), b')
    | .error e => (.error (.unexpectedTransition e), b)
  | _ => (.ok (b.verdict r), b)

end RunBarrier

namespace Filter

variable {ω χ : Type}

/-- The name of a filter, given those of the caller's own. -/
def name (ofCustom : χ → String) : Filter χ → String
  | transparent => "transparent"
  | abnormalEnd => "abnormal-end"
  | kindCount _ => "kind-count"
  | oneShot _ => "one-shot"
  | chain _ => "composite"
  | custom f => ofCustom f

variable [CustomFilter ω χ]

mutual
/-- Prepare a filter for a run. -/
def start : Filter χ → ω → Except PipelineError Unit × Filter χ × ω
  | transparent, w => (.ok (), transparent, w)
  | abnormalEnd, w => (.ok (), abnormalEnd, w)
  | kindCount _, w => (.ok (), kindCount {}, w)
  | oneShot b, w => (.ok (), oneShot b.reset, w)
  | chain members, w =>
    match startAll members w with
    | (result, members', w') => (result, chain members', w')
  | custom f, w =>
    match CustomFilter.start f w with
    | (result, f', w') => (result, custom f', w')

/-- Prepare filters in order, up to the first that fails. -/
def startAll : List (Filter χ) → ω → Except PipelineError Unit × List (Filter χ) × ω
  | [], w => (.ok (), [], w)
  | f :: fs, w =>
    match start f w with
    | (.ok (), f', w') =>
      match startAll fs w' with
      | (result, fs', w'') => (result, f' :: fs', w'')
    | (.error e, f', w') => (.error e, f' :: fs, w')
end

mutual
/-- Close a filter after a run. -/
def finish : Filter χ → ω → Except PipelineError Unit × Filter χ × ω
  | transparent, w => (.ok (), transparent, w)
  | abnormalEnd, w => (.ok (), abnormalEnd, w)
  | kindCount counts, w => (.ok (), kindCount counts, w)
  | oneShot b, w => (.ok (), oneShot b, w)
  | chain members, w =>
    match finishAll members w with
    | (result, members', w') => (result, chain members', w')
  | custom f, w =>
    match CustomFilter.finish f w with
    | (result, f', w') => (result, custom f', w')

/-- Close filters in order, up to the first that fails. -/
def finishAll : List (Filter χ) → ω → Except PipelineError Unit × List (Filter χ) × ω
  | [], w => (.ok (), [], w)
  | f :: fs, w =>
    match finish f w with
    | (.ok (), f', w') =>
      match finishAll fs w' with
      | (result, fs', w'') => (result, f' :: fs', w'')
    | (.error e, f', w') => (.error e, f' :: fs, w')
end

mutual
/-- Whether a filter has seen all it needs. -/
def isComplete (w : ω) : Filter χ → Bool
  | transparent | abnormalEnd | kindCount _ => false
  | oneShot b => b.complete
  | chain members => anyComplete w members
  | custom f => CustomFilter.isComplete f w

/-- Whether one of several filters has seen all it needs. -/
def anyComplete (w : ω) : List (Filter χ) → Bool
  | [] => false
  | f :: fs => isComplete w f || anyComplete w fs
end

mutual
/-- What a filter decides for a record. -/
def handle : Filter χ → Record → ω → Except PipelineError FilterOutput × Filter χ × ω
  | transparent, r, w => (.ok (.emit r), transparent, w)
  | abnormalEnd, r, w =>
    (.ok (if r.kind.family = .abnormalEnd then .flush r else .emit r), abnormalEnd, w)
  | kindCount counts, r, w => (.ok (.emit r), kindCount (counts.add r), w)
  | oneShot b, r, w => ((b.handle r).1, oneShot (b.handle r).2, w)
  | chain members, r, w =>
    match handleAll members r w with
    | (result, members', w') => (result, chain members', w')
  | custom f, r, w =>
    match CustomFilter.handle f r w with
    | (result, f', w') => (result, custom f', w')

/-- What filters in order decide for a record. -/
def handleAll : List (Filter χ) → Record → ω →
    Except PipelineError FilterOutput × List (Filter χ) × ω
  | [], r, w => (.ok (.emit r), [], w)
  | f :: fs, r, w =>
    match handle f r w with
    | (.ok (.emit r'), f', w') =>
      match handleAll fs r' w' with
      | (result, fs', w'') => (result, f' :: fs', w'')
    | (result, f', w') => (result, f' :: fs, w')
end

mutual
/-- The tables of all counters in a filter, in order. -/
def tables : Filter χ → List KindCounts
  | kindCount counts => [counts]
  | chain members => allTables members
  | _ => []

/-- The tables of all counters in several filters. -/
def allTables : List (Filter χ) → List KindCounts
  | [] => []
  | f :: fs => tables f ++ allTables fs
end

mutual
/-- All barriers in a filter, in order. -/
def barriers : Filter χ → List RunBarrier
  | oneShot b => [b]
  | chain members => allBarriers members
  | _ => []

/-- All barriers in several filters. -/
def allBarriers : List (Filter χ) → List RunBarrier
  | [] => []
  | f :: fs => barriers f ++ allBarriers fs
end

end Filter

end DaqStream
