import DaqStream.Logging
import DaqStream.Pipeline.Error
import DaqStream.Pipeline.Unglom
import DaqStream.Text.Blank

/-!
# Settings

Everything a user can choose, in three sections. Every choice has a default, except which
kinds are sampled. Texts are kept as they were given; `validate` says whether they can all be
read.
-/

namespace DaqStream

/-- Choices that concern the program as a whole. -/
structure ApplicationSettings where
  logLevel : String := "info"
  logFormat : String := "compact"
  deriving DecidableEq, Repr

/-- Which kinds are sampled, and how sparsely. -/
structure SampleSettings where
  kinds : List String
  /-- One record in this many is kept. -/
  every : UInt64 := 1
  deriving DecidableEq, Repr

/-- Choices that concern the stream and what is done with it. -/
structure PipelineSettings where
  /-- URI of the source. -/
  source : String := "-"
  /-- URI of the sink. -/
  sink : String := "-"
  format : FormatVersion := .v11
  /-- Records that are skipped before anything else happens. -/
  skip : UInt64 := 0
  /-- Records that are processed after that; zero means no limit. -/
  count : UInt64 := 0
  /-- If given, stop after one run that this many sources have ended. -/
  oneShotSources : Option UInt64 := none
  /-- Kinds that are dropped. -/
  exclude : List String := []
  sample : Option SampleSettings := none
  deriving DecidableEq, Repr

/-- All settings. -/
structure Settings where
  application : ApplicationSettings := {}
  pipeline : PipelineSettings := {}
  unglom : UnglomOptions := {}
  deriving DecidableEq, Repr

namespace Settings

/-- The log levels that settings may name. -/
def levelNames : List String := ["trace", "debug", "info", "warn", "error"]

/-- The forms of logged lines that settings may name. -/
def formatNames : List String := ["pretty", "compact", "json"]

/-- Whether a text is one of several names, in either case. -/
def isOneOf (names : List String) (text : String) : Bool :=
  names.contains (String.ofList (text.toList.map Char.toLower))

end Settings

/-- Why settings cannot be used. -/
inductive SettingsError where
  | unknownLogLevel (name : String)
  | unknownLogFormat (name : String)
  | badSource (cause : EndpointError)
  | badSink (cause : EndpointError)
  /-- A run that no source has to end. -/
  | noSources
  /-- A sampling that keeps one record in zero. -/
  | noPeriod
  | unknownKind (name : String)
  deriving DecidableEq, Repr

namespace SettingsError

/-- Several names, for a message. -/
def choices (names : List String) : String := ", ".intercalate names

/-- What is said about an error. -/
def message : SettingsError → String
  | unknownLogLevel name =>
    s!"Invalid log_level '{name}'. Must be one of: {choices Settings.levelNames}"
  | unknownLogFormat name =>
    s!"Invalid log_format '{name}'. Must be one of: {choices Settings.formatNames}"
  | badSource cause => "Invalid source URI: " ++ (PipelineError.configuration cause).message
  | badSink cause => "Invalid sink URI: " ++ (PipelineError.configuration cause).message
  | noSources => "one_shot_sources must be at least 1"
  | noPeriod => "sample.every must be at least 1"
  | unknownKind name => RecordKind.parseFailure name

end SettingsError

namespace Settings

/-- The kinds with given names; white space around a name counts for nothing. -/
def parseKinds (names : List String) : Except SettingsError (List RecordKind) :=
  names.mapM fun name =>
    match RecordKind.parse? (Blank.trim name) with
    | some kind => .ok kind
    | none => .error (.unknownKind (Blank.trim name))

/-- The kinds that are dropped. -/
def excludeKinds (s : Settings) : Except SettingsError (List RecordKind) :=
  parseKinds s.pipeline.exclude

/-- The kinds that are sampled and the sampling period, if there is a sampling. -/
def sampleKinds (s : Settings) : Except SettingsError (Option (List RecordKind × UInt64)) :=
  match s.pipeline.sample with
  | none => .ok none
  | some sample => (parseKinds sample.kinds).map fun kinds => some (kinds, sample.every)

/-- How the program logs. -/
def logOptions (s : Settings) : Except LoggingError LogOptions :=
  LogOptions.ofNames s.application.logLevel s.application.logFormat

/-- Whether the settings can be used, or the first thing that is wrong with them. -/
def validate (s : Settings) : Except SettingsError Unit := do
  if !isOneOf levelNames s.application.logLevel then
    throw (.unknownLogLevel s.application.logLevel)
  if !isOneOf formatNames s.application.logFormat then
    throw (.unknownLogFormat s.application.logFormat)
  let _ ← (Endpoint.parse s.pipeline.source).mapError .badSource
  let _ ← (Endpoint.parse s.pipeline.sink).mapError .badSink
  if s.pipeline.oneShotSources = some 0 then throw .noSources
  let _ ← s.excludeKinds
  if let some sample := s.pipeline.sample then
    if sample.every = 0 then throw .noPeriod
    let _ ← parseKinds sample.kinds

end Settings

end DaqStream
