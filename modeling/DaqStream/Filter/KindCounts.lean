import DaqStream.Record.Basic

/-!
# Counting records by source and kind

A table of counts with one cell for every pair of a source id and a kind that occurred.
Records without a body header have no source id. The cells are kept in order: no source id
first, then by source id, then by kind.
-/

namespace DaqStream

/-- A cell of the table: a source id, if there is one, and a kind. -/
abbrev KindCell := Option UInt32 × RecordKind

namespace KindCell

/-- The cell that a record is counted in. -/
def ofRecord (r : Record) : KindCell := (r.header.map BodyHeader.sourceId, r.kind)

/-- Whether one cell comes before another. -/
def before (a b : KindCell) : Bool :=
  match a.1, b.1 with
  | none, some _ => true
  | some _, none => false
  | none, none => a.2.le b.2 && a.2 ≠ b.2
  | some s, some t => s < t || (s == t && a.2.le b.2 && a.2 ≠ b.2)

end KindCell

/-- Counts of records by source id and kind. -/
structure KindCounts where
  cells : List (KindCell × Nat) := []
  deriving DecidableEq, Repr

namespace KindCounts

/-- Cells in order, with one more record counted in `cell`. -/
def bump (cell : KindCell) : List (KindCell × Nat) → List (KindCell × Nat)
  | [] => [(cell, 1)]
  | (c, n) :: cells =>
    if c = cell then (c, n + 1) :: cells
    else if cell.before c then (cell, 1) :: (c, n) :: cells
    else (c, n) :: bump cell cells

/-- The table after one more record. -/
def add (t : KindCounts) (r : Record) : KindCounts :=
  { cells := bump (KindCell.ofRecord r) t.cells }

/-- How many records were counted in a cell. -/
def count (t : KindCounts) (sourceId : Option UInt32) (kind : RecordKind) : Nat :=
  (t.cells.lookup (sourceId, kind)).getD 0

/-- How many records of a kind were counted, over all sources. -/
def total (t : KindCounts) (kind : RecordKind) : Nat :=
  t.cells.foldr (fun (cell, n) sum => if cell.2 = kind then n + sum else sum) 0

end KindCounts

end DaqStream
