import DaqStream.Text.Pieces
import DaqStream.Transport.Sink
import DaqStream.Transport.Source

/-!
# Trees of files

Files by name in directories, as sources and sinks find them. Directories are those that the
files lie in, and the one that names are looked up from. A sink empties its file when it is
opened, before anything is read; a directory can be opened as a source, and fails when it is
read.
-/

namespace DaqStream

/-- Where a name leads: the names of the directories from the root, then its own. -/
abbrev Location := List String

/-- Files, and the directory that names are looked up from. -/
structure FileTree where
  files : List (Location × Bytes) := []
  current : Location := []
  deriving Repr

namespace FileTree

/-- What is found at a location. -/
inductive Entry where
  | missing
  | file (contents : Bytes)
  | directory
  deriving DecidableEq, Repr

/-- What is at a location. -/
def entryAt (t : FileTree) (location : Location) : Entry :=
  match t.files.lookup location with
  | some contents => .file contents
  | none =>
    if location.isPrefixOf t.current || t.files.any fun f => location.isPrefixOf f.1 then
      .directory
    else .missing

/-- Follow the parts of a name from a location on. Only directories lead further. -/
def follow (t : FileTree) (here : Location) : List String → Except IoError Location
  | [] => .ok here
  | part :: parts =>
    match t.entryAt here with
    | .missing => .error .notFound
    | .file _ => .error .notADirectory
    | .directory => follow t (if part = ".." then here.dropLast else here ++ [part]) parts

/-- The location that a path leads to. -/
def locate (t : FileTree) (path : String) : Except IoError Location :=
  let parts := (textPieces '/' path).filter fun part => part ≠ "" ∧ part ≠ "."
  t.follow (if path.startsWith "/" then [] else t.current) parts

/-- Whether a path can only lead to a directory. -/
def namesDirectory (path : String) : Bool :=
  match (textPieces '/' path).getLast? with
  | some part => part = "" || part = "." || part = ".."
  | none => false

/-- Whether a path can be opened as a source. -/
def openSource (t : FileTree) (path : String) : Except IoError Unit := do
  match t.entryAt (← t.locate path) with
  | .missing => throw .notFound
  | .file _ => if namesDirectory path then throw .notADirectory
  | .directory => return ()

/-- What a source that has been opened delivers. -/
def deliver (t : FileTree) (path : String) : List Delivery :=
  match (t.locate path).map t.entryAt with
  | .ok (.file contents) => [.chunk contents]
  | .ok .directory => [.failure .isADirectory]
  | .ok .missing | .error _ => []

/-- The contents of a file, if a path leads to one. -/
def contents? (t : FileTree) (path : String) : Option Bytes :=
  match (t.locate path).map t.entryAt with
  | .ok (.file contents) => if namesDirectory path then none else some contents
  | _ => none

/-- Give a file new contents; a file that was not there is added. -/
def write (t : FileTree) (location : Location) (contents : Bytes) : FileTree :=
  { t with files := (location, contents) :: t.files.filter fun f => f.1 ≠ location }

/-- Open a path as a sink, which leaves an empty file there. -/
def openSink (t : FileTree) (path : String) : Except IoError FileTree := do
  let location ← t.locate path
  match t.entryAt location with
  | .directory => throw .isADirectory
  | .missing => if namesDirectory path then throw .isADirectory else return t.write location []
  | .file _ => if namesDirectory path then throw .notADirectory else return t.write location []

/-- Give the file of a sink that has been opened its contents. -/
def store (t : FileTree) (path : String) (contents : Bytes) : FileTree :=
  match t.locate path with
  | .ok location => t.write location contents
  | .error _ => t

end FileTree

end DaqStream
