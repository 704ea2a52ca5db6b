import DaqStream.Settings.Value
import DaqStream.Text.Blank
import DaqStream.Text.Decimal
import DaqStream.Text.Pieces
import DaqStream.Toml.Number
import DaqStream.Toml.Text

/-!
# Settings in variables

The environment holds settings in variables of their own. The name of a variable says which
setting it is for: a mark, then the keys that lead to the setting, with two underscores
between them. Its text is a value in a small notation: truth values, numbers, quoted texts,
lists in brackets and tables in braces; a text that is none of these stands for itself.
-/

namespace DaqStream.Settings

open Scan

/-- The variables around a program, in order, with their texts. -/
abbrev Environment := List (String × String)

/-- What the names of variables with settings begin with, in either case. -/
def variableMark : String := "RINGFILTER_"

/-- Points in place of pairs of underscores. -/
def pointed : List Char → List Char
  | '_' :: '_' :: cs => '.' :: pointed cs
  | c :: cs => c :: pointed cs
  | [] => []

/-- The keys that lead to the setting of a variable, in lower case. White space around a name
    counts for nothing. A variable is for no setting if its name has another mark or a key in it
    is empty. -/
def variablePath? (name : String) : Option (List String) :=
  let cs := Blank.trimChars name.toList
  if (cs.take variableMark.length).map Char.toUpper = variableMark.toList then
    let keys := pieces '.' (Blank.trimChars (pointed (cs.drop variableMark.length)))
    if keys.any List.isEmpty then none
    else some (keys.map fun key => String.ofList (key.map Char.toLower))
  else none

namespace Value

/-- Whether a character may stand around values. -/
def isSpace (c : Char) : Bool :=
  c == ' ' || c == '\t' || c == '\n' || c == '\x0c' || c == '\r'

/-- Whether a character ends a value without quotes. -/
def isDelimiter (c : Char) : Bool :=
  c == ',' || c == '\x7b' || c == '\x7d' || c == '[' || c == ']'

/-- Whether a text is a number with a point in it. -/
def isFractional (cs : List Char) : Bool :=
  (whole (do
    let _ ← optional (satisfy fun c => c == '+' || c == '-')
    let before ← run Toml.isDigit
    let _ ← optional (char '.')
    let after ← run Toml.isDigit
    if before.isEmpty && after.isEmpty then failure
    optional (do
      let _ ← satisfy fun c => c == 'e' || c == 'E'
      let _ ← optional (satisfy fun c => c == '+' || c == '-')
      run1 Toml.isDigit)) cs).isSome && cs.contains '.'

/-- A value without quotes: a number of 64 bits, with or without a sign, or else a text. -/
def ofBare (cs : List Char) : Value :=
  let written := String.ofList cs
  if isFractional cs then fractional
  else match Decimal.intWithin? (-9223372036854775808) UInt64.size written with
    | some n => integer n
    | none => text written

/-- The longest front of a text that takes at most `size` bytes. -/
def withinBytes (size : Nat) : List Char → List Char
  | [] => []
  | c :: cs => if c.utf8Size ≤ size then c :: withinBytes (size - c.utf8Size) cs else []

/-- A text in double quotes. In front of its first escape, if there is one, only as many bytes
    are kept as there are characters. -/
def quotedText : Scan (List Char) := do
  char '"'
  let front ← run Toml.isBasicChar
  let parts ← many ((do
    char '\\'
    return [← Toml.escaped]) <|> run1 Toml.isBasicChar)
  char '"'
  return (if parts.isEmpty then front else withinBytes front.length front) ++ parts.flatten

/-- Items up to a closing mark, with commas between them. A comma may stand right before the
    closing mark. -/
def itemsUpTo {α : Type} (close : Char) (item : Scan α) : (rounds : Nat) → Scan (List α)
  | 0 => failure
  | rounds + 1 =>
    (do
      char close
      return []) <|> (do
      let a ← item
      (do
        char ','
        return a :: (← itemsUpTo close item rounds)) <|> (do
        char close
        return [a]))

/-- A key of a table in braces, and its value. -/
def keyed (item : Scan Value) : Scan (String × Value) := do
  let _ ← run isSpace
  let key ← quotedText <|> run1 Toml.isBareKeyChar
  let _ ← run isSpace
  char '='
  return (String.ofList key, ← item)

/-- A value that is no truth value, given how the values in it are read. Its first character
    decides what it is. -/
def scanMarked (inner : Scan Value) : Scan Value := fun cs =>
  let rounds := cs.length + 1
  let marked : Scan Value :=
    match cs with
    | '\x7b' :: _ => do
      char '\x7b'
      let entries ← itemsUpTo '\x7d' (keyed inner) rounds
      return table (entries.foldl (fun below (key, v) => put key v below) [])
    | '[' :: _ => do
      char '['
      return list (← itemsUpTo ']' inner rounds)
    | '"' :: _ => do
      return text (String.ofList (← quotedText))
    | '\'' :: _ => do
      char '\''
      let c ← any
      char '\''
      return text (String.ofList [c])
    | _ => do
      return ofBare (Blank.trimChars (← run fun c => !isDelimiter c))
  marked cs

/-- A value, with lists and tables at most `depth` deep. -/
def scan : (depth : Nat) → Scan Value
  | 0 => failure
  | depth + 1 => do
    let _ ← run isSpace
    let v ← (do
      literal "true"
      return boolean true) <|> (do
      literal "false"
      return boolean false) <|> scanMarked (scan depth)
    let _ ← run isSpace
    return v

/-- The value that the text of a variable stands for. -/
def ofText (written : String) : Value :=
  (whole (scan (written.length + 1)) written.toList).getD (text written)

/-- The values that an environment gives; a later variable is laid over those before it. -/
def ofEnvironment (environment : Environment) : Value :=
  environment.foldl (fun below (name, written) =>
    match variablePath? name with
    | some path => below.overlay (nest (ofText written) path)
    | none => below) (table [])

end Value

end DaqStream.Settings
