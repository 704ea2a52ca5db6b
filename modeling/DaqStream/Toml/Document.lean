import DaqStream.Toml.Statement

/-!
# TOML documents

Reading a document: its statements build up its tables, each header saying where the
assignments after it belong.
-/

namespace DaqStream.Toml

/-- A document of which a part has been read. -/
structure Draft where
  nodes : Nodes := []
  /-- Where assignments belong. -/
  current : List String := []

namespace Draft

/-- Open a table under a header. -/
def enter (d : Draft) (key : List String) (opening : String → Nodes → Option Nodes) :
    Option Draft :=
  match key.getLast? with
  | none => none
  | some last =>
    (d.nodes.modifyAt (opening last) key.dropLast).map fun nodes => { nodes, current := key }

/-- Take in a statement, unless it contradicts the statements before it. -/
def add (d : Draft) : Statement → Option Draft
  | .assign key value =>
    (d.nodes.modifyAt (Nodes.assign true key value) d.current).map fun nodes => { d with nodes }
  | .table key => d.enter key Nodes.openTable
  | .arrayTable key => d.enter key Nodes.openArrayTable

end Draft

/-- The entries of a document, if it is one. -/
def parse? (document : String) : Option Entries := do
  let draft ← (← statements document).foldlM Draft.add {}
  return finishEntries draft.nodes

end DaqStream.Toml
