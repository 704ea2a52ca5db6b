/-!
# Reading texts step by step

A scanner takes characters off the front of a text, or fails and takes nothing. Scanners
follow each other with `do`; `a <|> b` tries `b` where `a` fails. Repetition needs no promise
that every round takes a character: a text cannot be read in more rounds than it has
characters, and one more.
-/

namespace DaqStream

/-- A step of reading: the text before gives a value and the text after. -/
abbrev Scan (α : Type) := StateT (List Char) Option α

namespace Scan

variable {α β : Type}

/-- The next character, if it is as wanted. -/
def satisfy (wanted : Char → Bool) : Scan Char := fun
  | c :: cs => if wanted c then some (c, cs) else none
  | [] => none

/-- The next character. -/
def any : Scan Char := satisfy fun _ => true

/-- One given character. -/
def char (c : Char) : Scan Unit := do
  let _ ← satisfy (· == c)

/-- Given characters, one after the other. -/
def chars : List Char → Scan Unit
  | [] => pure ()
  | c :: cs => do
    char c
    chars cs

/-- A given text. -/
def literal (text : String) : Scan Unit := chars text.toList

/-- The longest run of characters that are as wanted. -/
def run (wanted : Char → Bool) : Scan (List Char) := fun cs =>
  some (cs.takeWhile wanted, cs.dropWhile wanted)

/-- The longest run of characters that are as wanted, at least one. -/
def run1 (wanted : Char → Bool) : Scan (List Char) := do
  let cs ← run wanted
  if cs.isEmpty then failure else pure cs

/-- Succeeds at the end of the text. -/
def done : Scan Unit := fun
  | [] => some ((), [])
  | _ :: _ => none

/-- Repeat a scanner until it fails, at most `rounds` times. -/
def upTo (rounds : Nat) (item : Scan α) : Scan (List α) :=
  match rounds with
  | 0 => pure []
  | rounds + 1 => (do
      let a ← item
      return a :: (← upTo rounds item)) <|> pure []

/-- Repeat a scanner until it fails. -/
def many (item : Scan α) : Scan (List α) := fun cs => upTo (cs.length + 1) item cs

/-- Items with a separator between them, at least one. -/
def separated1 (separator : Scan β) (item : Scan α) : Scan (List α) := do
  let first ← item
  return first :: (← many (do
    let _ ← separator
    item))

/-- Items with a separator between them, or none. -/
def separated (separator : Scan β) (item : Scan α) : Scan (List α) :=
  separated1 separator item <|> pure []

/-- The text that a scanner takes. -/
def taken (item : Scan α) : Scan String := fun cs =>
  match StateT.run item cs with
  | some (_, rest) => some (String.ofList (cs.take (cs.length - rest.length)), rest)
  | none => none

/-- What a scanner makes of a whole text. -/
def whole (item : Scan α) (text : List Char) : Option α :=
  (StateT.run (do
    let a ← item
    done
    return a) text).map Prod.fst

end Scan

end DaqStream
