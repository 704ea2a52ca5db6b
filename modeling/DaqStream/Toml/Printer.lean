import DaqStream.Text.Hexadecimal
import DaqStream.Toml.Value

/-!
# Writing TOML

A text is written in the first style that needs no escapes: one line in double quotes, one
line in single quotes, several lines in double quotes, several lines in single quotes. Where
every style needs escapes, it is written in double quotes with escapes. Arrays of two or more
items take a line for each item. An integer that does not fit cannot be written.
-/

namespace DaqStream.Toml

/-- Length of the longest run of `c`, when the run that ends here has length `current` and
    the longest before has length `longest`. -/
def longestRun (c : Char) (current longest : Nat) : List Char → Nat
  | [] => longest
  | d :: ds =>
    if d = c then longestRun c (current + 1) (max longest (current + 1)) ds
    else longestRun c 0 longest ds

/-- What the styles depend on. -/
structure TextShape where
  /-- Length of the longest run of single quotes. -/
  singleQuotes : Nat
  /-- Length of the longest run of double quotes. -/
  doubleQuotes : Nat
  hasControl : Bool
  hasBackslash : Bool
  hasNewline : Bool

/-- The shape of a text. -/
def TextShape.of (cs : List Char) : TextShape where
  singleQuotes := longestRun '\'' 0 0 cs
  doubleQuotes := longestRun '"' 0 0 cs
  hasControl := cs.any fun c => isControl c && c != '\n'
  hasBackslash := cs.any (· == '\\')
  hasNewline := cs.any (· == '\n')

/-- A style for texts. -/
inductive TextStyle where
  /-- Double quotes, one line. -/
  | basic
  /-- Single quotes, one line. -/
  | literal
  /-- Three double quotes, any number of lines. -/
  | multilineBasic
  /-- Three single quotes, any number of lines. -/
  | multilineLiteral
  deriving DecidableEq, Repr

namespace TextStyle

/-- The style for a text of a given shape. -/
def choose (s : TextShape) : TextStyle :=
  if !s.hasControl && !s.hasBackslash && s.doubleQuotes == 0 && !s.hasNewline then basic
  else if !s.hasControl && s.singleQuotes == 0 && !s.hasNewline then literal
  else if !s.hasControl && !s.hasBackslash && s.doubleQuotes ≤ 2 then multilineBasic
  else if !s.hasControl && s.singleQuotes ≤ 2 then multilineLiteral
  else if s.hasNewline then multilineBasic
  else basic

/-- What stands before and after a text. -/
def delimiter : TextStyle → List Char
  | basic => ['"']
  | literal => ['\'']
  | multilineBasic => ['"', '"', '"']
  | multilineLiteral => ['\'', '\'', '\'']

/-- How many double quotes may follow each other without escapes. -/
def quotesAllowed : TextStyle → Nat
  | multilineBasic => 2
  | _ => 0

/-- The escape of a character, if a style needs one. -/
def escape? (style : TextStyle) (c : Char) : Option (List Char) :=
  if c = '\x08' then some ['\\', 'b']
  else if c = '\t' then some ['\\', 't']
  else if c = '\n' then if style = multilineBasic then none else some ['\\', 'n']
  else if c = '\x0c' then some ['\\', 'f']
  else if c = '\r' then some ['\\', 'r']
  else if c = '\\' then some ['\\', '\\']
  else if isControl c then
    some ('\\' :: 'u' :: (Hexadecimal.ofNat 4 c.toNat).map Char.toUpper)
  else none

/-- A text with escapes, after `quotes` double quotes in a row that were not escaped. -/
def escaped (style : TextStyle) (quotes : Nat) : List Char → List Char
  | [] => []
  | c :: cs =>
    if c = '"' then
      if quotes < style.quotesAllowed then c :: escaped style (quotes + 1) cs
      else '\\' :: c :: escaped style 0 cs
    else match style.escape? c with
      | some text => text ++ escaped style 0 cs
      | none => c :: escaped style 0 cs

/-- A text between its delimiters. A text of several lines begins on a line of its own. -/
def write (style : TextStyle) (cs : List Char) : List Char :=
  let opening := match style with
    | multilineBasic | multilineLiteral => if cs.any (· == '\n') then ['\n'] else []
    | _ => []
  let inner := match style with
    | basic | multilineBasic => escaped style 0 cs
    | literal | multilineLiteral => cs
  style.delimiter ++ opening ++ inner ++ style.delimiter

end TextStyle

/-- A text in the style that suits it. -/
def writeText (text : String) : String :=
  String.ofList ((TextStyle.choose (.of text.toList)).write text.toList)

mutual
/-- A value, unless an integer in it does not fit. -/
def writeValue : Value → Option String
  | .boolean value => some (if value then "true" else "false")
  | .integer value => if integerFits value then some (toString value) else none
  | .float text => some text
  | .date text => some text
  | .text value => some (writeText value)
  | .array items =>
    match writeItems items with
    | none => none
    | some [] => some "[]"
    | some [item] => some ("[" ++ item ++ "]")
    | some items =>
      some ("[\n" ++ String.join (items.map fun item => "    " ++ item ++ ",\n") ++ "]")
  | .table entries =>
    match writeEntries entries with
    | none => none
    | some [] => some "\x7b\x7d"
    | some entries => some ("\x7b " ++ ", ".intercalate entries ++ " \x7d")

/-- Several values. -/
def writeItems : List Value → Option (List String)
  | [] => some []
  | v :: vs =>
    match writeValue v, writeItems vs with
    | some v, some vs => some (v :: vs)
    | _, _ => none

/-- Entries of a table, each a key and a value. -/
def writeEntries : Entries → Option (List String)
  | [] => some []
  | (key, v) :: entries =>
    match writeValue v, writeEntries entries with
    | some v, some lines => some ((key ++ " = " ++ v) :: lines)
    | _, _ => none
end

/-- A table under a header, one line for each entry. Keys are written without quotes. -/
structure Section where
  path : List String
  entries : Entries

namespace Section

/-- The lines of a section. -/
def write (s : Section) : Option String :=
  (writeEntries s.entries).map fun lines =>
    "[" ++ ".".intercalate s.path ++ "]\n" ++ String.join (lines.map (· ++ "\n"))

/-- Sections with empty lines between them. -/
def writeAll (sections : List Section) : Option String :=
  (sections.mapM write).map fun texts => "\n".intercalate texts

end Section

end DaqStream.Toml
