import DaqStream.Settings.Basic
import DaqStream.Settings.Value

/-!
# Reading settings

A section is a table, or a list of its choices in order. Choices that are not mentioned have
their defaults, entries that are no choices count for nothing. `exact` refuses a list with
more values than its section has choices; otherwise the surplus counts for nothing.
-/

namespace DaqStream.Settings

namespace Value

/-- The entries of a section whose choices have the given names. -/
def entries? (exact : Bool) (names : List String) : Value → Option (List (String × Value))
  | table entries => some entries
  | list items => if exact && names.length < items.length then none else some (names.zip items)
  | _ => none

/-- What an entry gives, or a default. -/
def entry {α : Type} (entries : List (String × Value)) (name : String) (default : α)
    (read : Value → Option α) : Option α :=
  match entries.lookup name with
  | some v => read v
  | none => some default

/-- A text. -/
def text? : Value → Option String
  | text value => some value
  | _ => none

/-- A truth value. -/
def boolean? : Value → Option Bool
  | boolean value => some value
  | _ => none

/-- A number below a bound that is not negative. -/
def natBelow? (bound : Nat) : Value → Option Nat
  | integer value => if 0 ≤ value ∧ value < bound then some value.toNat else none
  | _ => none

/-- A 32-bit number. -/
def u32? (v : Value) : Option UInt32 := (v.natBelow? UInt32.size).map UInt32.ofNat

/-- A 64-bit number. -/
def u64? (v : Value) : Option UInt64 := (v.natBelow? UInt64.size).map UInt64.ofNat

/-- A list of texts. -/
def texts? : Value → Option (List String)
  | list items => items.mapM text?
  | _ => none

/-- Something or nothing. -/
def optional? {α : Type} (read : Value → Option α) : Value → Option (Option α)
  | null => some none
  | v => (read v).map some

/-- A generation: by its name, or as a table whose only key is its name. -/
def format? : Value → Option FormatVersion
  | text name => FormatVersion.ofName? name
  | table [(name, null)] => FormatVersion.ofName? name
  | _ => none

end Value

open Value

/-- The application section. -/
def application? (exact : Bool) (v : Value) : Option ApplicationSettings := do
  let es ← v.entries? exact ["log_level", "log_format"]
  let default : ApplicationSettings := {}
  return { logLevel := ← entry es "log_level" default.logLevel text?
           logFormat := ← entry es "log_format" default.logFormat text? }

/-- The sampling in the pipeline section. -/
def sample? (exact : Bool) (v : Value) : Option SampleSettings := do
  let es ← v.entries? exact ["kinds", "every"]
  return { kinds := ← texts? (← es.lookup "kinds"), every := ← entry es "every" 1 u64? }

/-- The pipeline section. -/
def pipeline? (exact : Bool) (v : Value) : Option PipelineSettings := do
  let es ← v.entries? exact ["source", "sink", "format", "skip", "count", "one_shot_sources",
    "exclude", "sample"]
  let default : PipelineSettings := {}
  return { source := ← entry es "source" default.source text?
           sink := ← entry es "sink" default.sink text?
           format := ← entry es "format" default.format format?
           skip := ← entry es "skip" default.skip u64?
           count := ← entry es "count" default.count u64?
           oneShotSources := ← entry es "one_shot_sources" none (optional? u64?)
           exclude := ← entry es "exclude" default.exclude texts?
           sample := ← entry es "sample" none (optional? (sample? exact)) }

/-- The decomposition section. -/
def unglom? (exact : Bool) (v : Value) : Option UnglomOptions := do
  let es ← v.entries? exact ["default_source_id", "split_built_events"]
  let default : UnglomOptions := {}
  return { defaultSourceId := ← entry es "default_source_id" default.defaultSourceId u32?
           splitBuiltEvents := ← entry es "split_built_events" default.splitBuiltEvents boolean? }

/-- All settings. -/
def ofValue? (exact : Bool) (v : Value) : Option Settings := do
  let es ← v.entries? exact ["application", "pipeline", "unglom"]
  return { application := ← entry es "application" {} (application? exact)
           pipeline := ← entry es "pipeline" {} (pipeline? exact)
           unglom := ← entry es "unglom" {} (unglom? exact) }

end DaqStream.Settings
