/-!
# Failures of readers, writers and files
-/

namespace DaqStream

/-- What kind of failure a reader, a writer or a file system reports. -/
inductive IoErrorKind where
  | notFound
  | permissionDenied
  | isADirectory
  | notADirectory
  | brokenPipe
  | unexpectedEof
  | writeZero
  | timedOut
  /-- Nothing can be done at the moment. -/
  | wouldBlock
  /-- The attempt was interrupted. -/
  | interrupted
  deriving DecidableEq, Repr

/-- The name of a kind of failure. -/
def IoErrorKind.name : IoErrorKind → String
  | .notFound => "NotFound"
  | .permissionDenied => "PermissionDenied"
  | .isADirectory => "IsADirectory"
  | .notADirectory => "NotADirectory"
  | .brokenPipe => "BrokenPipe"
  | .unexpectedEof => "UnexpectedEof"
  | .writeZero => "WriteZero"
  | .timedOut => "TimedOut"
  | .wouldBlock => "WouldBlock"
  | .interrupted => "Interrupted"

/-- A failure of a reader, a writer or a file system, with what is said about it. -/
structure IoError where
  kind : IoErrorKind
  text : String
  deriving DecidableEq, Repr

namespace IoError

/-- Whether the same attempt is simply made again. -/
def isTransient (e : IoError) : Bool :=
  e.kind = .wouldBlock || e.kind = .interrupted

/-- A writer accepted nothing of what it was given. -/
def writeZero : IoError := ⟨.writeZero, "write zero"⟩

/-- A path names nothing. -/
def notFound : IoError := ⟨.notFound, "No such file or directory (os error 2)"⟩

/-- A path may not be used. -/
def permissionDenied : IoError := ⟨.permissionDenied, "Permission denied (os error 13)"⟩

/-- A path goes through something that is no directory. -/
def notADirectory : IoError := ⟨.notADirectory, "Not a directory (os error 20)"⟩

/-- A directory was used as a file. -/
def isADirectory : IoError := ⟨.isADirectory, "Is a directory (os error 21)"⟩

end IoError

end DaqStream
