import DaqStream.Settings.Basic
import DaqStream.Text.Pieces

/-!
# Reporting failures

What a user reads when a command fails: what could not be done, then the causes. A single
cause stands alone, several are numbered from zero.
-/

namespace DaqStream.CommandLine

/-- Why a command failed. -/
inductive CommandError where
  /-- The settings at a path cannot be read. -/
  | unreadableSettings (path : String)
  | badSettings (cause : SettingsError)
  | badLogging (cause : LoggingError)
  /-- A number in the settings is too great to be printed. -/
  | unprintableSettings
  | noSource (uri : String) (cause : PipelineError)
  | noSink (uri : String) (cause : PipelineError)
  | filterFailed (cause : PipelineError)
  | unglomFailed (cause : PipelineError)
  deriving DecidableEq, Repr

namespace CommandError

/-- What is said about an error, and about its causes. -/
def chain : CommandError → List String
  | unreadableSettings path => ["Failed to load configuration from " ++ path]
  | badSettings cause => [cause.message]
  | badLogging cause => [cause.message]
  | unprintableSettings => ["out-of-range value for u64 type"]
  | noSource uri cause => ("Failed to open source " ++ uri) :: cause.chain
  | noSink uri cause => ("Failed to open sink " ++ uri) :: cause.chain
  | filterFailed cause => "Filter pipeline failed" :: cause.chain
  | unglomFailed cause => "Unglom failed" :: cause.chain

end CommandError

/-- A text of several lines, indented; the first line is marked with `mark`. -/
def indented (mark rest text : String) : String :=
  mark ++ String.intercalate ("\n" ++ rest) (textPieces '\n' text)

/-- Causes in order, the first numbered `n`. -/
def numbered (n : Nat) : List String → String
  | [] => ""
  | cause :: causes =>
    let number := toString n
    let margin := String.ofList (List.replicate (5 - number.length) ' ')
    "\n" ++ indented (margin ++ number ++ ": ") "       " cause ++ numbered (n + 1) causes

/-- The report on an error and its causes. -/
def report : List String → String
  | [] => ""
  | [top] => "Error: " ++ top ++ "\n"
  | [top, cause] => "Error: " ++ top ++ "\n\nCaused by:\n" ++ indented "    " "    " cause ++ "\n"
  | top :: causes => "Error: " ++ top ++ "\n\nCaused by:" ++ numbered 0 causes ++ "\n"

end DaqStream.CommandLine
