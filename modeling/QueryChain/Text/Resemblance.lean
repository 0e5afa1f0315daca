/-!
# Resemblance of words

How much two words resemble each other, by the letters that they share at nearby places and the order in which
they share them. It decides whether a word may be a misspelt command.

* `Resemblance.shared`: the letters of one word that the other has nearby, in the order of either word.
* `resembles`: whether two words resemble each other by more than seven tenths.
-/

namespace QueryChain.Text

namespace Resemblance

/-- How far apart letters may be that count as shared. -/
def reach (a b : List Char) : Nat :=
  Nat.max a.length b.length / 2 - 1

/-- Marks the first letter that equals `c` and is not marked yet, among those at places from `first` to
`last`; the list starts at `place`. -/
def mark (c : Char) (first last place : Nat) : List (Char × Bool) → Option (List (Char × Bool))
  | [] => none
  | (d, marked) :: rest =>
    if first ≤ place ∧ place ≤ last ∧ d = c ∧ !marked then some ((d, true) :: rest)
    else (mark c first last (place + 1) rest).map ((d, marked) :: ·)

/-- Looks for each letter of a word in the other: the letters found, and the other word with its marks. -/
def search (far : Nat) : Nat → List Char → List (Char × Bool) → List Char × List (Char × Bool)
  | _, [], other => ([], other)
  | place, c :: rest, other =>
    match mark c (place - far) (place + far) 0 other with
    | some other =>
      let (found, other) := search far (place + 1) rest other
      (c :: found, other)
    | none => search far (place + 1) rest other

/-- The letters that two words share, in the order of each word. -/
def shared (a b : List Char) : List Char × List Char :=
  let (found, marked) := search (reach a b) 0 a (b.map fun c => (c, false))
  (found, (marked.filter (·.2)).map (·.1))

end Resemblance

/-- Whether two words resemble each other by more than seven tenths: the mean of the part of each word that is
shared and the part of the shared letters that are in the same order, where two letters out of order count once. -/
def resembles (s t : String) : Bool :=
  let a := s.toList
  let b := t.toList
  let (inA, inB) := Resemblance.shared a b
  let n := inA.length
  let swapped := ((List.zip inA inB).countP fun (c, d) => c != d) / 2
  if a.isEmpty && b.isEmpty then true
  else if n = 0 then false
  else
    21 * (a.length * b.length * n) <
      10 * (n * b.length * n + n * a.length * n + (n - swapped) * (a.length * b.length))

end QueryChain.Text
