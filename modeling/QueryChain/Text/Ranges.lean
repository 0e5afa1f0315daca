/-!
# Sets of characters by boundaries

A set of code points is written as the ascending list of the points at which membership changes:
`[a, b, c, d]` is `a ≤ n < b` or `c ≤ n < d`. A point is in the set when an odd number of boundaries
lie at or below it.
-/

namespace QueryChain.Text

/-- Membership of a code point in the set with these boundaries. -/
def within (boundaries : List Nat) (n : Nat) : Bool :=
  (boundaries.takeWhile (· ≤ n)).length % 2 == 1

@[simp] theorem within_nil (n : Nat) : within [] n = false := rfl

end QueryChain.Text
