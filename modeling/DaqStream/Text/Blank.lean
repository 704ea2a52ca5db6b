/-!
# White space around names

The characters with the Unicode property `White_Space`, and removing them from
both ends of a text.
-/

namespace DaqStream

namespace Blank

/-- The ranges of code points with the property `White_Space`. -/
def ranges : List (Nat × Nat) :=
  [(0x09, 0x0D), (0x20, 0x20), (0x85, 0x85), (0xA0, 0xA0), (0x1680, 0x1680), (0x2000, 0x200A),
   (0x2028, 0x2029), (0x202F, 0x202F), (0x205F, 0x205F), (0x3000, 0x3000)]

/-- Whether a character is white space. -/
def isBlank (c : Char) : Bool :=
  ranges.any fun r => r.1 ≤ c.toNat && c.toNat ≤ r.2

/-- `cs` without white space at either end. -/
def trimChars (cs : List Char) : List Char :=
  ((cs.dropWhile isBlank).reverse.dropWhile isBlank).reverse

/-- `text` without white space at either end. -/
def trim (text : String) : String := String.ofList (trimChars text.toList)

end Blank

end DaqStream
