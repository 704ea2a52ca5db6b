import DaqStream.Settings.Basic
import DaqStream.Toml.Printer

/-!
# Settings as a document

All settings, one section after the other. Choices that are not made are left out.
-/

namespace DaqStream.Settings

/-- An entry for a choice that may not have been made. -/
def entryFor (key : String) : Option UInt64 → Toml.Entries
  | some n => [(key, .integer n.toNat)]
  | none => []

/-- The sections of a document with these settings. -/
def sections (s : Settings) : List Toml.Section :=
  [{ path := ["application"]
     entries := [("log_level", .text s.application.logLevel),
                 ("log_format", .text s.application.logFormat)] },
   { path := ["pipeline"]
     entries := [("source", .text s.pipeline.source), ("sink", .text s.pipeline.sink),
                 ("format", .text s.pipeline.format.name),
                 ("skip", .integer s.pipeline.skip.toNat),
                 ("count", .integer s.pipeline.count.toNat)] ++
                entryFor "one_shot_sources" s.pipeline.oneShotSources ++
                [("exclude", .array (s.pipeline.exclude.map .text))] }] ++
  (match s.pipeline.sample with
    | some sample =>
      [{ path := ["pipeline", "sample"]
         entries := [("kinds", .array (sample.kinds.map .text)),
                     ("every", .integer sample.every.toNat)] }]
    | none => []) ++
  [{ path := ["unglom"]
     entries := [("default_source_id", .integer s.unglom.defaultSourceId.toNat),
                 ("split_built_events", .boolean s.unglom.splitBuiltEvents)] }]

/-- A document with these settings; there is none if a number in them is too great. -/
def document? (s : Settings) : Option String := Toml.Section.writeAll s.sections

end DaqStream.Settings
