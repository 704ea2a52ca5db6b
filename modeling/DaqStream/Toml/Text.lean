import DaqStream.Text.Hexadecimal
import DaqStream.Text.Scan
import DaqStream.Toml.Value

/-!
# Reading texts of a TOML document

Blanks, comments, ends of lines, the four forms of texts, and keys. A carriage return counts
only as a part of an end of line, which always reads as a single newline.
-/

namespace DaqStream.Toml

open Scan

/-- Whether a character is a blank. -/
def isBlank (c : Char) : Bool := c == ' ' || c == '\t'

/-- Blanks. -/
def blanks : Scan Unit := do
  let _ ← run isBlank

/-- An end of line. -/
def newline : Scan Unit := char '\n' <|> literal "\r\n"

/-- A comment, up to the end of its line. -/
def comment : Scan Unit := do
  char '#'
  let _ ← run fun c => !isControl c

/-- What may stand between the items of an array: blanks, comments and ends of lines. -/
def gaps : Scan Unit := do
  let _ ← many (do
    blanks
    let _ ← optional comment
    newline)
  blanks

/-- A character given by a number of hexadecimal digits. -/
def codePoint (width : Nat) : Scan Char := fun cs =>
  if cs.length < width then none
  else match Hexadecimal.toNat? (cs.take width) with
    | some n => if n.isValidChar then some (Char.ofNat n, cs.drop width) else none
    | none => none

/-- The rest of an escape, after its backslash. -/
def escaped : Scan Char := do
  match ← any with
  | 'b' => return '\x08'
  | 't' => return '\t'
  | 'n' => return '\n'
  | 'f' => return '\x0c'
  | 'r' => return '\r'
  | '"' => return '"'
  | '\\' => return '\\'
  | 'u' => codePoint 4
  | 'U' => codePoint 8
  | _ => failure

/-- Whether a character can stand in double quotes as it is. -/
def isBasicChar (c : Char) : Bool := !isControl c && c != '"' && c != '\\'

/-- Whether a character can stand in single quotes as it is. -/
def isLiteralChar (c : Char) : Bool := !isControl c && c != '\''

/-- A text in double quotes. -/
def basicText : Scan (List Char) := do
  char '"'
  let parts ← many (run1 isBasicChar <|> (do
    char '\\'
    return [← escaped]))
  char '"'
  return parts.flatten

/-- A text in single quotes. -/
def literalText : Scan (List Char) := do
  char '\''
  let cs ← run isLiteralChar
  char '\''
  return cs

/-- One or two quotes that do not end a text of several lines. -/
def innerQuotes (quote : Char) : Scan (List Char) := do
  let quotes ← run1 (· == quote)
  if quotes.length ≤ 2 then return quotes else failure

/-- The end of a text of several lines, and the one or two quotes in front of it that still
    belong to the text. -/
def closingQuotes (quote : Char) : Scan (List Char) := do
  let quotes ← run1 (· == quote)
  if 3 ≤ quotes.length ∧ quotes.length ≤ 5 then return quotes.drop 3 else failure

/-- A backslash at the end of a line: it and all blanks and ends of lines after it count for
    nothing. -/
def continuation : Scan Unit := do
  char '\\'
  blanks
  newline
  let _ ← many ((do
    let _ ← run1 isBlank) <|> newline)

/-- A text of several lines, given what it is made of besides ends of lines and quotes. -/
def multilineText (quote : Char) (part : Scan (List Char)) : Scan (List Char) := do
  chars [quote, quote, quote]
  let _ ← optional newline
  let parts ← many (part <|> (do
    newline
    return ['\n']) <|> innerQuotes quote)
  return parts.flatten ++ (← closingQuotes quote)

/-- A text of several lines in double quotes. -/
def multilineBasicText : Scan (List Char) :=
  multilineText '"' (run1 isBasicChar <|> (do
    continuation
    return []) <|> (do
    char '\\'
    return [← escaped]))

/-- A text of several lines in single quotes. -/
def multilineLiteralText : Scan (List Char) :=
  multilineText '\'' (run1 isLiteralChar)

/-- A text in any of the four forms. -/
def text : Scan String := do
  return String.ofList
    (← multilineBasicText <|> basicText <|> multilineLiteralText <|> literalText)

/-- One part of a key. -/
def keyPart : Scan String := do
  return String.ofList (← run1 isBareKeyChar <|> basicText <|> literalText)

/-- Most parts that a key can have. -/
def maxKeyParts : Nat := 79

/-- A key: parts with dots between them. -/
def key : Scan (List String) := do
  let parts ← separated1 (do
    blanks
    char '.'
    blanks) keyPart
  if parts.length ≤ maxKeyParts then return parts else failure

end DaqStream.Toml
