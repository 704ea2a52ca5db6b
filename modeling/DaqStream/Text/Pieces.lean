/-!
# Cutting texts at a mark

The pieces of a text between the places where a mark stands. There is always one piece more
than there are marks, and joining the pieces with the mark gives the text again.
-/

namespace DaqStream

/-- The pieces of `cs` between marks. -/
def pieces (mark : Char) (cs : List Char) : List (List Char) :=
  match cs with
  | [] => [[]]
  | c :: cs =>
    match pieces mark cs with
    | [] => [[]]
    | piece :: more => if c = mark then [] :: piece :: more else (c :: piece) :: more

theorem pieces_ne_nil (mark : Char) (cs : List Char) : pieces mark cs ≠ [] := by
  cases cs with
  | nil => simp [pieces]
  | cons c cs =>
    unfold pieces
    split
    · simp
    · split <;> simp

/-- The pieces of a text between marks. -/
def textPieces (mark : Char) (text : String) : List String :=
  (pieces mark text.toList).map String.ofList

end DaqStream
