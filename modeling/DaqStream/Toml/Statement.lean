import DaqStream.Toml.Number
import DaqStream.Toml.Text
import DaqStream.Toml.Tree

/-!
# Statements of a TOML document

A document is a sequence of statements, one on a line: a key with its value, the header of a
table, or the header of one more table of an array. Arrays and tables within braces may lie
inside each other to a fixed depth.
-/

namespace DaqStream.Toml

open Scan

/-- A statement. -/
inductive Statement where
  | assign (key : List String) (value : Value)
  | table (key : List String)
  | arrayTable (key : List String)
  deriving Repr

/-- A truth value. -/
def boolean : Scan Bool :=
  (do
    literal "true"
    return true) <|> (do
    literal "false"
    return false)

/-- A value that holds no other values. -/
def scalar : Scan Value :=
  Value.text <$> text <|> Value.date <$> taken date <|> Value.float <$> taken float <|>
    Value.integer <$> integer <|> Value.boolean <$> boolean

/-- An array, given how its items are read. A comma may follow the last item. -/
def array (item : Scan Value) : Scan Value := do
  char '['
  let items ← separated (char ',') (do
    gaps
    let v ← item
    gaps
    return v)
  if !items.isEmpty then
    let _ ← optional (char ',')
  gaps
  char ']'
  return .array items

/-- A key and its value. -/
def assignment (item : Scan Value) : Scan (List String × Value) := do
  let k ← key
  blanks
  char '='
  blanks
  return (k, ← item)

/-- A table within braces, given how its values are read. -/
def inlineTable (item : Scan Value) : Scan Value := do
  char '\x7b'
  let pairs ← separated (char ',') (do
    blanks
    let pair ← assignment item
    blanks
    return pair)
  blanks
  char '\x7d'
  match pairs.foldlM (fun nodes (k, v) => Nodes.assign true k v nodes) [] with
  | some nodes => return .table (finishEntries nodes)
  | none => failure

/-- Deepest nesting of arrays and tables within braces. -/
def maxDepth : Nat := 79

/-- A value, nested at most `depth` deep. -/
def value (depth : Nat) : Scan Value :=
  match depth with
  | 0 => scalar
  | depth + 1 => array (value depth) <|> inlineTable (value depth) <|> scalar

/-- The key in a header, given the marks around it. -/
def header (opening closing : List Char) : Scan (List String) := do
  chars opening
  blanks
  let k ← key
  blanks
  chars closing
  return k

/-- A statement. -/
def statement : Scan Statement :=
  Statement.arrayTable <$> header ['[', '['] [']', ']'] <|>
    Statement.table <$> header ['['] [']'] <|>
    (fun (k, v) => Statement.assign k v) <$> assignment (value maxDepth)

/-- A line, which may hold a statement and may hold a comment. -/
def line : Scan (Option Statement) := do
  blanks
  let s ← optional statement
  blanks
  let _ ← optional comment
  return s

/-- The statements of a document; a byte-order mark in front of them counts for nothing. -/
def statements (document : String) : Option (List Statement) :=
  (whole (do
    let _ ← optional (char '\uFEFF')
    separated1 newline line) document.toList).map fun lines => lines.filterMap id

end DaqStream.Toml
