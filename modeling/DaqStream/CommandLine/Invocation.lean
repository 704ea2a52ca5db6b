import DaqStream.CommandLine.Option
import DaqStream.Settings.Basic
import DaqStream.Text.Decimal

/-!
# Invocations

What the arguments of the program ask for: a command with its choices, or help. Choices on the
command line win over settings from anywhere else.
-/

namespace DaqStream.CommandLine

/-- The commands. -/
inductive CommandName where
  | filter
  | unglom
  | config
  deriving DecidableEq, Repr

namespace CommandName

/-- All commands. -/
def all : List CommandName := [filter, unglom, config]

/-- The name of a command. -/
def name : CommandName → String
  | filter => "filter"
  | unglom => "unglom"
  | config => "config"

/-- What a command does. -/
def about : CommandName → String
  | filter => "Run records through the filter pipeline"
  | unglom => "Decompose records into flat event-builder fragments"
  | config => "Print the effective configuration as TOML"

/-- The command with exactly this name. -/
def ofName? (text : String) : Option CommandName := all.find? fun command => command.name = text

end CommandName

/-- A 64-bit number in an argument. -/
def u64? (text : String) : Option UInt64 := (Decimal.natBelow? UInt64.size text).map UInt64.ofNat

/-- A 32-bit number in an argument. It may have a sign, as long as it is not negative. -/
def u32? (text : String) : Option UInt32 :=
  (Decimal.intWithin? 0 UInt32.size text).map fun n => UInt32.ofNat n.toNat

/-- The option that every command has. -/
def configOption : OptionSpec where
  name := "config"
  valueName := some "CONFIG"
  about := "Configuration file"
  accepts := fun text => text ≠ ""

/-- The options that say which stream is read and written. -/
def streamOptions : List OptionSpec :=
  [{ name := "source"
     valueName := some "SOURCE"
     about := "Source URI (`-` for stdin, `file:///path` or a path)" },
   { name := "sink"
     valueName := some "SINK"
     about := "Sink URI (`-` for stdout, `file:///path` or a path)" },
   { name := "format"
     valueName := some "FORMAT"
     about := "Wire generation (v10, v11, v12)"
     accepts := fun text => (FormatVersion.parse? text).isSome }]

/-- The options of a command. -/
def CommandName.options : CommandName → List OptionSpec
  | filter => configOption :: streamOptions ++
    [{ name := "skip"
       valueName := some "SKIP"
       about := "Records to skip before processing"
       accepts := fun text => (u64? text).isSome },
     { name := "count"
       valueName := some "COUNT"
       about := "Records to process after skipping (0 = unlimited)"
       accepts := fun text => (u64? text).isSome },
     { name := "one-shot"
       valueName := some "SOURCES"
       about := "Stop after one run ended by this many sources"
       accepts := fun text => (u64? text).isSome },
     { name := "exclude"
       valueName := some "KIND"
       about := "Record kinds to drop (names or numeric tags)"
       repeatable := true }]
  | unglom => configOption :: streamOptions ++
    [{ name := "split-built-events"
       about := "Split event-built physics events into their fragments" },
     { name := "default-source-id"
       valueName := some "DEFAULT_SOURCE_ID"
       about := "Source id for records without a body header"
       accepts := fun text => (u32? text).isSome }]
  | config => [configOption]

/-- A command with the choices made for it. -/
structure Invocation where
  /-- Where the settings are, if that was said. -/
  config : Option String
  command : CommandName
  given : Given
  deriving DecidableEq, Repr

/-- What a user can ask for help on. -/
inductive HelpTopic where
  | program
  | command (name : CommandName)
  /-- The command that gives help. -/
  | help
  deriving DecidableEq, Repr

/-- What the arguments ask for. -/
inductive Request where
  | run (invocation : Invocation)
  | help (topic : HelpTopic)
  deriving DecidableEq, Repr

namespace Request

/-- Help for whoever asked in the middle of `topic`, or the error. -/
def interrupted (topic : HelpTopic) : Interruption → Except UsageError Request
  | .help => .ok (.help topic)
  | .misuse e => .error e

/-- Read the arguments of the command `help`. -/
def ofHelp : List String → Except UsageError Request
  | [] => .ok (.help .program)
  | ["help"] => .ok (.help .help)
  | [name] =>
    match CommandName.ofName? name with
    | some command => .ok (.help (.command command))
    | none => .error (.unknownCommand name)
  | _ :: name :: _ => .error (.unknownCommand name)

/-- Read the arguments of a command; `outer` was given in front of its name. -/
def ofCommand (outer : Given) (command : CommandName) (arguments : List String) :
    Except UsageError Request :=
  match readOptions command.options [] arguments with
  | .error e => interrupted (.command command) e
  | .ok (_, text :: _) => .error (.unexpected text)
  | .ok (given, []) =>
    .ok (.run { config := (given.value? "config").or (outer.value? "config"), command, given })

/-- Read the arguments of the program. -/
def ofArguments (arguments : List String) : Except UsageError Request :=
  match readOptions [configOption] [] arguments with
  | .error e => interrupted .program e
  | .ok (_, []) => .error .missingCommand
  | .ok (outer, name :: rest) =>
    if name = "help" then ofHelp rest
    else match CommandName.ofName? name with
      | some command => ofCommand outer command rest
      | none => .error (.unknownCommand name)

end Request

namespace Invocation

/-- Where the settings are. -/
def configPath (i : Invocation) : String := i.config.getD "config/ringfilter.toml"

/-- Settings with the choices that concern the stream. -/
def overrideStream (given : Given) (p : PipelineSettings) : PipelineSettings :=
  { p with
    source := (given.value? "source").getD p.source
    sink := (given.value? "sink").getD p.sink
    format := ((given.value? "format").bind FormatVersion.parse?).getD p.format }

/-- Settings with the choices of a filter run. -/
def overrideFilter (given : Given) (p : PipelineSettings) : PipelineSettings :=
  let excluded := (given.values "exclude").flatMap (textPieces ',')
  { p with
    skip := ((given.value? "skip").bind u64?).getD p.skip
    count := ((given.value? "count").bind u64?).getD p.count
    oneShotSources := ((given.value? "one-shot").bind u64?).or p.oneShotSources
    exclude := if excluded.isEmpty then p.exclude else excluded }

/-- Settings with the choices of a decomposition. -/
def overrideUnglom (given : Given) (o : UnglomOptions) : UnglomOptions where
  defaultSourceId := ((given.value? "default-source-id").bind u32?).getD o.defaultSourceId
  splitBuiltEvents := o.splitBuiltEvents || (given.value? "split-built-events").isSome

/-- Settings with the choices of an invocation. -/
def override (i : Invocation) (s : Settings) : Settings :=
  match i.command with
  | .config => s
  | .filter =>
    { s with pipeline := overrideFilter i.given (overrideStream i.given s.pipeline) }
  | .unglom =>
    { s with
      pipeline := overrideStream i.given s.pipeline
      unglom := overrideUnglom i.given s.unglom }

end Invocation

end DaqStream.CommandLine
