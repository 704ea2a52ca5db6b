/-!
# Logging options

How much is logged and in which form. Names are read in either case. Logging is switched on
at most once: later attempts leave the first choice as it is and are no errors.
-/

namespace DaqStream

/-- How much is logged. -/
inductive LogLevel where
  | trace
  | debug
  | info
  | warn
  | error
  deriving DecidableEq, Repr

/-- The form of logged lines. -/
inductive LogFormat where
  | pretty
  | compact
  | json
  deriving DecidableEq, Repr

namespace LogLevel

/-- The levels, from the one that logs most. -/
def all : List LogLevel := [trace, debug, info, warn, error]

/-- The name of a level. -/
def name : LogLevel → String
  | trace => "trace"
  | debug => "debug"
  | info => "info"
  | warn => "warn"
  | error => "error"

/-- The names of the levels, for a message. -/
def choices : String := ", ".intercalate (all.map name)

/-- Read a level as a user writes it. -/
def parse? (text : String) : Option LogLevel :=
  let lowered := String.ofList (text.toList.map Char.toLower)
  all.find? fun level => level.name = lowered

end LogLevel

namespace LogFormat

/-- The forms. -/
def all : List LogFormat := [pretty, compact, json]

/-- The name of a form. -/
def name : LogFormat → String
  | pretty => "pretty"
  | compact => "compact"
  | json => "json"

/-- The names of the forms, for a message. -/
def choices : String := ", ".intercalate (all.map name)

/-- Read a form as a user writes it. -/
def parse? (text : String) : Option LogFormat :=
  let lowered := String.ofList (text.toList.map Char.toLower)
  all.find? fun format => format.name = lowered

end LogFormat

/-- Why there are no logging options. -/
inductive LoggingError where
  | unknownLevel (name : String)
  | unknownFormat (name : String)
  deriving DecidableEq, Repr

namespace LoggingError

/-- What is said about an error. -/
def message : LoggingError → String
  | unknownLevel name => s!"Invalid log level '{name}'. Must be one of: {LogLevel.choices}"
  | unknownFormat name => s!"Invalid log format '{name}'. Must be one of: {LogFormat.choices}"

end LoggingError

/-- What is logged, and how. -/
structure LogOptions where
  level : LogLevel := .info
  format : LogFormat := .compact
  /-- Whether the beginning and end of activities are logged. -/
  spanEvents : Bool := false
  fileAndLine : Bool := false
  threadNames : Bool := false
  /-- Whether lines are coloured, in the pretty form. -/
  ansi : Bool := true
  deriving DecidableEq, Repr

namespace LogOptions

/-- The options with a level and a form given by name. -/
def ofNames (level format : String) : Except LoggingError LogOptions := do
  let some l := LogLevel.parse? level | throw (.unknownLevel level)
  let some f := LogFormat.parse? format | throw (.unknownFormat format)
  return { level := l, format := f }

/-- Switch logging on with `chosen`, unless it is on already. -/
def install (current : Option LogOptions) (chosen : LogOptions) : LogOptions :=
  current.getD chosen

end LogOptions

end DaqStream
