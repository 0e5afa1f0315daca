import QueryChain.Text.Ranges

/-!
# Blank characters

The Unicode property `White_Space`, and the removal of blanks at the ends of a text.
-/

namespace QueryChain.Text

/-- Boundaries of the Unicode property `White_Space`. -/
def blankBoundaries : List Nat :=
  [0x9, 0xe, 0x20, 0x21, 0x85, 0x86, 0xa0, 0xa1, 0x1680, 0x1681, 0x2000, 0x200b, 0x2028, 0x202a,
   0x202f, 0x2030, 0x205f, 0x2060, 0x3000, 0x3001]

/-- A character with the Unicode property `White_Space`. -/
def isBlank (c : Char) : Bool :=
  within blankBoundaries c.toNat

/-- Removes the blanks in front. -/
def trimStart (cs : List Char) : List Char :=
  cs.dropWhile isBlank

/-- Removes the blanks at the end. -/
def trimEnd (cs : List Char) : List Char :=
  (cs.reverse.dropWhile isBlank).reverse

/-- Removes the blanks at both ends. -/
def trim (cs : List Char) : List Char :=
  trimEnd (trimStart cs)

@[simp] theorem trimStart_nil : trimStart [] = [] := rfl

end QueryChain.Text
