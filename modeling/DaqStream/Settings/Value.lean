import DaqStream.Toml.Value

/-!
# Values that settings are read from

Documents and variables are brought into one form before settings are read from them. Later
layers win: `overlay` lays tables over each other entry by entry, and lets anything else
replace what was there.
-/

namespace DaqStream.Settings

/-- A value. -/
inductive Value where
  | null
  | boolean (value : Bool)
  | integer (value : Int)
  /-- A number that is no integer; no setting is one. -/
  | fractional
  | text (value : String)
  | list (items : List Value)
  | table (entries : List (String × Value))
  deriving Repr, Inhabited

namespace Value

mutual
/-- The value of a TOML value. A date is a table with one entry that no setting is called. -/
def ofToml : Toml.Value → Value
  | .boolean value => boolean value
  | .integer value => integer value
  | .float _ => fractional
  | .date written => table [("date", text written)]
  | .text value => text value
  | .array items => list (ofTomlItems items)
  | .table entries => table (ofTomlEntries entries)

/-- The values of the items of an array. -/
def ofTomlItems : List Toml.Value → List Value
  | [] => []
  | v :: vs => ofToml v :: ofTomlItems vs

/-- The values of the entries of a table. -/
def ofTomlEntries : Toml.Entries → List (String × Value)
  | [] => []
  | (key, v) :: entries => (key, ofToml v) :: ofTomlEntries entries
end

/-- Give a key a value, in place of the one it may have. -/
def put (key : String) (value : Value) : List (String × Value) → List (String × Value)
  | [] => [(key, value)]
  | (k, v) :: entries => if k = key then (k, value) :: entries else (k, v) :: put key value entries

mutual
/-- A value over another: tables are joined, anything else is replaced. -/
def overlay (lower : Value) : (upper : Value) → Value
  | table entries =>
    match lower with
    | table below => table (overlayEntries below entries)
    | _ => table entries
  | null => null
  | boolean value => boolean value
  | integer value => integer value
  | fractional => fractional
  | text value => text value
  | list items => list items

/-- Entries over others. -/
def overlayEntries (lower : List (String × Value)) : (upper : List (String × Value)) →
    List (String × Value)
  | [] => lower
  | (key, v) :: entries =>
    match lower.lookup key with
    | some below => overlayEntries (put key (overlay below v) lower) entries
    | none => overlayEntries (put key v lower) entries
end

/-- A value at the end of a path of keys. -/
def nest (value : Value) : List String → Value
  | [] => value
  | key :: path => table [(key, nest value path)]

end Value

end DaqStream.Settings
