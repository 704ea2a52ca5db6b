import DaqStream.CommandLine.Report
import DaqStream.Pipeline.Mediator
import DaqStream.Pipeline.Unglom

/-!
# Jobs

What the commands do with a stream: run its records through filters and predicates, or
decompose them. The settings say which filters and predicates there are.
-/

namespace DaqStream.CommandLine

/-- The filters of a filter run: an abnormal end is always passed on, one run is waited for on
    demand, and everything that comes through is counted. -/
def filtersFor (s : Settings) : List (Filter Empty) :=
  [.abnormalEnd] ++
    (match s.pipeline.oneShotSources with
      | some sources => [.oneShot (.ofRunTransitions sources.toNat)]
      | none => []) ++
    [.kindCount {}]

/-- The predicates of a filter run. -/
def predicatesFor (s : Settings) : Except SettingsError (List (Predicate Empty)) := do
  let excluded ← s.excludeKinds
  let sampled ← s.sampleKinds
  return (if excluded.isEmpty then [] else [.exclude excluded]) ++
    (match sampled with
      | some (kinds, every) => [.sample { kinds, every := every.toNat }]
      | none => []) ++
    [.countWindow { toSkip := s.pipeline.skip.toNat, toProcess := s.pipeline.count.toNat }]

/-- Run the records of a source through the filters; what the sink has accepted at the end. -/
def filterStream (s : Settings) (source : StreamSource) :
    Except CommandError RunSummary × StreamSink :=
  match predicatesFor s with
  | .error e => (.error (.badSettings e), {})
  | .ok predicates =>
    let mediator : Mediator StreamSource StreamSink Empty Empty :=
      { source, sink := {}, filters := filtersFor s, predicates }
    match mediator.run () with
    | (result, mediator, ()) => (result.mapError .filterFailed, mediator.sink)

/-- Decompose the records of a source; what the sink has accepted at the end. -/
def unglomStream (s : Settings) (source : StreamSource) :
    Except CommandError UnglomTally × StreamSink :=
  let unglom : Unglom StreamSource StreamSink := { source, sink := {}, options := s.unglom }
  match unglom.run () with
  | (result, unglom, ()) => (result.mapError .unglomFailed, unglom.sink)

end DaqStream.CommandLine
