/-!
# Blank characters

A character is blank when it has the Unicode property White_Space. The property is kept as a table
of ranges of code points, and `trim` removes blanks at both ends of a text.
-/

namespace SecondPass.Text

/-- The code points with the property White_Space, as closed ranges in ascending order. -/
def blankRanges : List (Nat × Nat) :=
  [(0x09, 0x0D), (0x20, 0x20), (0x85, 0x85), (0xA0, 0xA0), (0x1680, 0x1680), (0x2000, 0x200A),
    (0x2028, 0x2029), (0x202F, 0x202F), (0x205F, 0x205F), (0x3000, 0x3000)]

/-- A character is blank when its code point lies in one of the ranges. -/
def isBlank (c : Char) : Bool :=
  blankRanges.any fun r => decide (r.1 ≤ c.toNat ∧ c.toNat ≤ r.2)

/-- Removes the blank characters at both ends of a text. -/
def trim (s : String) : String :=
  String.ofList (((s.toList.dropWhile isBlank).reverse.dropWhile isBlank).reverse)

/-- The table lists 25 code points. -/
example : (blankRanges.map fun r => r.2 + 1 - r.1).sum = 25 := by decide

end SecondPass.Text
