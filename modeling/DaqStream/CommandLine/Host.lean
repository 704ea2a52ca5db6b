import DaqStream.CommandLine.Help
import DaqStream.CommandLine.Job
import DaqStream.Settings.Document
import DaqStream.Settings.Layers
import DaqStream.Transport.FileTree

/-!
# Running the program

The program asks the system around it for a few things only: its environment, documents, and both
ends of a stream. `Host` lists them, and `program` is the program for any host. A `Machine` is
a host in memory.
-/

namespace DaqStream.CommandLine

/-- What is found at a path where settings are looked for. -/
inductive SettingsFile where
  | missing
  /-- It is no text, or may not be read. -/
  | unreadable
  | document (text : String)

/-- What the program needs from the system around it. -/
class Host (m : Type → Type) where
  environment : m Settings.Environment
  /-- The path of the directory that the program runs in, from the root. -/
  directory : m String
  /-- What is found at a path. -/
  settingsFile : String → m SettingsFile
  openSource : Endpoint → m (Except IoError Unit)
  /-- Open a sink, which is empty afterwards. -/
  openSink : Endpoint → m (Except IoError Unit)
  /-- What a source that has been opened delivers. -/
  deliver : Endpoint → m (List Delivery)
  /-- Write to a sink that has been opened. -/
  store : Endpoint → Bytes → m Unit

/-- How the program ends. -/
structure Ending where
  code : Nat
  /-- What is said on the error output. -/
  said : String
  deriving DecidableEq, Repr

/-- A step of a command. -/
abbrev Step (m : Type → Type) (α : Type) := ExceptT CommandError m α

variable {m : Type → Type} [Monad m] [Host m]

/-- The bytes of a text. -/
def textBytes (text : String) : Bytes := text.toUTF8.toList

/-- Open an end of a stream. -/
def openEnd (uri : String) (failure : PipelineError → CommandError)
    (opening : Endpoint → m (Except IoError Unit)) : Step m Endpoint := do
  match Endpoint.parse uri with
  | .error e => throw (failure (.configuration e))
  | .ok endpoint =>
    match ← ExceptT.lift (opening endpoint) with
    | .error e => throw (failure (.transport e))
    | .ok () => return endpoint

/-- Open both ends of the stream and do a job on it. What the sink accepted is kept, however
    the job ends. -/
def stream {α : Type} (s : Settings)
    (job : StreamSource → Except CommandError α × StreamSink) : Step m α := do
  let source ← openEnd s.pipeline.source (.noSource s.pipeline.source) Host.openSource
  let sink ← openEnd s.pipeline.sink (.noSink s.pipeline.sink) Host.openSink
  let pending ← ExceptT.lift (Host.deliver (m := m) source)
  let (result, accepted) := job { pending, version := s.pipeline.format }
  ExceptT.lift (Host.store (m := m) sink accepted.received)
  ExceptT.mk (pure result)

/-- Where settings with a path are looked for, in order. A path that does not begin at the root
    is followed from `directory` and then from each of the directories around it. -/
def settingsPaths (directory path : String) : List String :=
  if path.startsWith "/" then [path]
  else
    let parts := (textPieces '/' directory).filter (· ≠ "")
    (List.range (parts.length + 1)).map fun n =>
      "/" ++ "/".intercalate (parts.take (parts.length - n) ++ [path])

/-- What is at the first of several paths where there is something. -/
def firstSettings : List String → m SettingsFile
  | [] => return .missing
  | path :: paths => do
    match ← Host.settingsFile path with
    | .missing => firstSettings paths
    | found => return found

/-- The settings of an invocation: those of the document and the environment, then those of the
    command line. -/
def settingsFor (i : Invocation) : Step m Settings := do
  let environment ← ExceptT.lift (Host.environment (m := m))
  let directory ← ExceptT.lift (Host.directory (m := m))
  let document ← match ←
      ExceptT.lift (firstSettings (m := m) (settingsPaths directory i.configPath)) with
    | .missing => pure none
    | .document text => pure (some text)
    | .unreadable => throw (.unreadableSettings i.configPath)
  let some loaded := Settings.load? document environment
    | throw (.unreadableSettings i.configPath)
  return i.override loaded

/-- Do what a command is for, with settings that can be used. -/
def carryOut (command : CommandName) (s : Settings) : Step m Unit := do
  if let .error e := s.logOptions then throw (.badLogging e)
  match command with
  | .filter => discard (stream s (filterStream s))
  | .unglom => discard (stream s (unglomStream s))
  | .config =>
    let some text := s.document? | throw .unprintableSettings
    ExceptT.lift (Host.store (m := m) .stdio (textBytes text))

/-- Do what an invocation asks for, if its settings can be used. -/
def perform (i : Invocation) : Step m Unit := do
  let s ← settingsFor i
  if let .error e := s.validate then throw (.badSettings e)
  carryOut i.command s

/-- The program, with its arguments. -/
def program (arguments : List String) : m Ending := do
  match Request.ofArguments arguments with
  | .error e => return { code := 2, said := "error: " ++ e.message ++ "\n" }
  | .ok (.help topic) =>
    Host.store .stdio (textBytes (helpText topic))
    return { code := 0, said := "" }
  | .ok (.run i) =>
    match ← (perform i).run with
    | .ok () => return { code := 0, said := "" }
    | .error e => return { code := 1, said := report e.chain }

/-- A system in memory, with the devices for standard input and output. -/
structure Machine where
  files : FileTree := {}
  environment : Settings.Environment := []
  /-- What is on standard input. -/
  input : Bytes := []
  /-- What has been written to standard output. -/
  output : Bytes := []

namespace Machine

/-- The stream that is at a path, if the path is that of a device. -/
def device : Endpoint → Endpoint
  | .file "/dev/stdin" | .file "/dev/stdout" => .stdio
  | endpoint => endpoint

instance : Host (StateM Machine) where
  environment := return (← get).environment
  directory := return "/" ++ "/".intercalate (← get).files.current
  settingsFile path := do
    match (← get).files.contents? path with
    | none => return .missing
    | some contents =>
      match String.fromUTF8? ⟨contents.toArray⟩ with
      | some text => return .document text
      | none => return .unreadable
  openSource endpoint :=
    match device endpoint with
    | .stdio => return .ok ()
    | .file path => return (← get).files.openSource path
  openSink endpoint :=
    match device endpoint with
    | .stdio => return .ok ()
    | .file path => do
      match (← get).files.openSink path with
      | .ok files => modify fun machine => { machine with files }; return .ok ()
      | .error e => return .error e
  deliver endpoint :=
    match device endpoint with
    | .stdio => return [.chunk (← get).input]
    | .file path => return (← get).files.deliver path
  store endpoint bytes :=
    match device endpoint with
    | .stdio => modify fun machine => { machine with output := machine.output ++ bytes }
    | .file path => modify fun machine => { machine with files := machine.files.store path bytes }

end Machine

end DaqStream.CommandLine
