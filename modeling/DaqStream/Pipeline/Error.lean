import DaqStream.Record.Error
import DaqStream.Run.Barrier
import DaqStream.Transport.Endpoint
import DaqStream.Transport.Error

/-!
# What can stop a pipeline
-/

namespace DaqStream

/-- The causes that stop a pipeline. -/
inductive PipelineError where
  /-- A record cannot be read. -/
  | malformedRecord (cause : RecordError)
  /-- Run transitions contradict each other. -/
  | unexpectedTransition (cause : TransitionError)
  /-- A source or sink failed. -/
  | transport (cause : IoError)
  /-- A mark of an abnormal end was seen and has been written. -/
  | abnormalEnd
  /-- A URI names no endpoint. -/
  | configuration (cause : EndpointError)
  /-- A filter gave up, for a reason of its own. -/
  | filter (name reason : String)
  deriving DecidableEq, Repr

namespace PipelineError

/-- What is said about an error. -/
def message : PipelineError → String
  | malformedRecord cause => "Malformed record: " ++ cause.message
  | unexpectedTransition cause => "Unexpected transition: " ++ cause.message
  | transport cause => "Transport error: " ++ cause.text
  | abnormalEnd => "Abnormal end of run observed upstream; record flushed downstream"
  | configuration cause => "Configuration validation error: " ++ cause.message
  | filter name reason => s!"Filter '{name}' failed: {reason}"

/-- What is said about an error and, if it has a cause of its own, about that. -/
def chain (e : PipelineError) : List String :=
  e.message :: match e with
    | malformedRecord cause => [cause.message]
    | unexpectedTransition cause => [cause.message]
    | transport cause => [cause.text]
    | _ => []

end PipelineError

end DaqStream
