import DaqStream.CommandLine.Host

/-!
# The program

Runs the program on the real system: files, standard input and output, and the environment.
-/

namespace DaqStream.Main

open CommandLine

/-- A failure of the system. -/
def ioError (e : IO.Error) : IoError :=
  match e with
  | .noFileOrDirectory .. => .notFound
  | .permissionDenied .. => .permissionDenied
  | .inappropriateType _ code _ => if code = 20 then .notADirectory else .isADirectory
  | e => ⟨.timedOut, toString e⟩

/-- What an action gives, or how it failed. -/
def attempt {α : Type} (action : IO α) : IO (Except IoError α) := do
  try return .ok (← action) catch e => return .error (ioError e)

/-- Everything that a source delivers. -/
def readAll (read : IO ByteArray) : IO (List Delivery) := do
  match ← attempt read with
  | .ok bytes => return [.chunk bytes.toList]
  | .error e => return [.failure e]

/-- What is left of a stream. -/
partial def readToEnd (input : IO.FS.Stream) (before : ByteArray) : IO ByteArray := do
  let more ← input.read 65536
  if more.isEmpty then return before else readToEnd input (before ++ more)

/-- Variables as the system lists them, each ended by a zero byte. -/
def environmentOf (listing : ByteArray) : Settings.Environment :=
  match String.fromUTF8? listing with
  | none => []
  | some text => (textPieces '\x00' text).filterMap fun entry =>
    match entry.toList.dropWhile (· ≠ '=') with
    | [] => none
    | _ :: value => some (String.ofList (entry.toList.takeWhile (· ≠ '=')), String.ofList value)

instance : Host IO where
  environment := do
    match ← attempt (IO.FS.readBinFile "/proc/self/environ") with
    | .ok listing => return environmentOf listing
    | .error _ => return []
  directory := return (← IO.currentDir).toString
  settingsFile path := do
    match ← attempt (IO.FS.readBinFile path) with
    | .ok bytes => return match String.fromUTF8? bytes with
      | some text => .document text
      | none => .unreadable
    | .error e => return if e.kind = .permissionDenied then .unreadable else .missing
  openSource
    | .stdio => return .ok ()
    | .file path => attempt (do discard (IO.FS.Handle.mk path .read))
  openSink
    | .stdio => return .ok ()
    | .file path => attempt (do discard (IO.FS.Handle.mk path .write))
  deliver
    | .stdio => readAll (do readToEnd (← IO.getStdin) .empty)
    | .file path => readAll (IO.FS.readBinFile path)
  store
    | .stdio, bytes => do
      let output ← IO.getStdout
      output.write ⟨bytes.toArray⟩
      output.flush
    | .file path, bytes => IO.FS.writeBinFile path ⟨bytes.toArray⟩

end DaqStream.Main

/-- Run the program with the arguments of the command line. -/
def main (arguments : List String) : IO UInt32 := do
  let ending ← DaqStream.CommandLine.program (m := IO) arguments
  IO.eprint ending.said
  return UInt32.ofNat ending.code
