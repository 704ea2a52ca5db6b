import DaqStream.Toml.Value

/-!
# Tables in the making

The tables of a document grow statement by statement. A table remembers how it came about,
because that decides what may still be added to it: a table with a header of its own may get
no second header, a dotted key may only add to tables that dotted keys have made, and a table
within braces is complete.
-/

namespace DaqStream.Toml

/-- How a table came about. -/
inductive Origin where
  /-- From a header of its own. -/
  | header
  /-- From the header of a table inside it. -/
  | implied
  /-- From a dotted key. -/
  | dotted
  deriving DecidableEq, Repr

/-- What a key of an unfinished table stands for. -/
inductive Node where
  /-- A value, which is complete. -/
  | value (v : Value)
  | table (origin : Origin) (entries : List (String × Node))
  /-- An array of tables; only the last can still grow. -/
  | tables (earlier : List (List (String × Node))) (last : List (String × Node))

/-- The entries of an unfinished table, in order. -/
abbrev Nodes := List (String × Node)

namespace Nodes

/-- Give a key another node, at the end if the key is new. -/
def put (key : String) (node : Node) : Nodes → Nodes
  | [] => [(key, node)]
  | (k, n) :: nodes => if k = key then (k, node) :: nodes else (k, n) :: put key node nodes

/-- Give a dotted key a value. A key that has one is refused, and so is a table that no dotted
    key has made: `direct` says whether the table at hand may get entries of its own. -/
def assign (direct : Bool) : (key : List String) → Value → Nodes → Option Nodes
  | [], _, _ => none
  | [k], v, nodes =>
    if direct && (nodes.lookup k).isNone then some (nodes.put k (.value v)) else none
  | k :: ks, v, nodes =>
    match nodes.lookup k with
    | none => (assign true ks v []).map fun sub => nodes.put k (.table .dotted sub)
    | some (.table .dotted sub) =>
      (assign true ks v sub).map fun sub => nodes.put k (.table .dotted sub)
    | some (.table .implied sub) =>
      (assign false ks v sub).map fun sub => nodes.put k (.table .implied sub)
    | some (.tables earlier last) =>
      (assign false ks v last).map fun last => nodes.put k (.tables earlier last)
    | some (.table .header _) | some (.value _) => none

/-- Change the table that a path leads to. Tables that are missing on the way are implied; an
    array of tables leads to its last table. -/
def modifyAt (change : Nodes → Option Nodes) : (path : List String) → Nodes → Option Nodes
  | [], nodes => change nodes
  | k :: ks, nodes =>
    match nodes.lookup k with
    | none => (modifyAt change ks []).map fun sub => nodes.put k (.table .implied sub)
    | some (.table origin sub) =>
      (modifyAt change ks sub).map fun sub => nodes.put k (.table origin sub)
    | some (.tables earlier last) =>
      (modifyAt change ks last).map fun last => nodes.put k (.tables earlier last)
    | some (.value _) => none

/-- Give a table the header it has not got yet. -/
def openTable (key : String) (nodes : Nodes) : Option Nodes :=
  match nodes.lookup key with
  | none => some (nodes.put key (.table .header []))
  | some (.table .implied sub) => some (nodes.put key (.table .header sub))
  | some _ => none

/-- Begin one more table of an array of tables. -/
def openArrayTable (key : String) (nodes : Nodes) : Option Nodes :=
  match nodes.lookup key with
  | none => some (nodes.put key (.tables [] []))
  | some (.tables earlier last) => some (nodes.put key (.tables (earlier ++ [last]) []))
  | some _ => none

end Nodes

mutual
/-- The value of a finished node. -/
def Node.finish : Node → Value
  | .value v => v
  | .table _ entries => .table (finishEntries entries)
  | .tables earlier last => .array (finishTables earlier ++ [.table (finishEntries last)])

/-- The entries of a finished table. -/
def finishEntries : List (String × Node) → Entries
  | [] => []
  | (k, n) :: nodes => (k, n.finish) :: finishEntries nodes

/-- The values of finished tables. -/
def finishTables : List (List (String × Node)) → List Value
  | [] => []
  | entries :: tables => .table (finishEntries entries) :: finishTables tables
end

end DaqStream.Toml
