import QueryChain.Decimal.Shortest

/-!
# Written forms of doubles

Three layouts of the shortest digits of a double: the *exact* form of literals and trees, the *plain* form
of messages and texts, and the *data* form of JSON. They differ in where positional notation ends, in
whether a whole number keeps `.0`, and in the sign of a positive exponent.

* `layout`: a double in a layout.
-/

namespace QueryChain.Decimal

/-- The decisions of a written form. -/
structure Layout where
  /-- Least power of ten of the first digit that is written positionally; without a bound, all are. -/
  least : Option Int
  /-- Greatest power of ten of the first digit that is written positionally; without a bound, all are. -/
  greatest : Option Int
  /-- Whole numbers end in `.0`. -/
  keepPoint : Bool
  /-- A positive exponent is written with `+`. -/
  signedExponent : Bool

/-- Literals: positional from `0.0001` to below `1e16`, whole numbers with `.0`. -/
def exactLayout : Layout := ⟨some (-4), some 15, true, false⟩

/-- Messages: always positional, whole numbers without a point. -/
def plainLayout : Layout := ⟨none, none, false, false⟩

/-- JSON: positional from `0.00001` to below `1e16`, whole numbers with `.0`, exponents with a sign. -/
def dataLayout : Layout := ⟨some (-5), some 15, true, true⟩

/-! ## Digits -/

/-- Decimal digits of a number. -/
def digits (n : Nat) : List Char :=
  Nat.toDigits 10 n

/-- `n` zeros. -/
def zeros (n : Nat) : List Char :=
  List.replicate n '0'

/-- The digits `ds` times `10 ^ k`, positionally. -/
def positional (keepPoint : Bool) (ds : List Char) (k : Int) : List Char :=
  if 0 ≤ k then ds ++ zeros k.toNat ++ (if keepPoint then ['.', '0'] else [])
  else
    let places := (-k).toNat
    if places < ds.length then ds.take (ds.length - places) ++ '.' :: ds.drop (ds.length - places)
    else '0' :: '.' :: zeros (places - ds.length) ++ ds

/-- The digits `ds` with a point after the first and the exponent `e` of the first. -/
def scientific (signed : Bool) (ds : List Char) (e : Int) : List Char :=
  let mantissa :=
    match ds with
    | [] => []
    | [d] => [d]
    | d :: more => d :: '.' :: more
  let sign := if e < 0 then ['-'] else if signed then ['+'] else []
  mantissa ++ 'e' :: sign ++ digits e.natAbs

/-- A finite double in a layout. -/
def layoutFinite (l : Layout) (x : Binary) : List Char :=
  let (d, k) := shortest x
  let ds := digits d
  let e := k + (ds.length : Int) - 1
  let inside := l.least.all (· ≤ e) && l.greatest.all (e ≤ ·)
  (if x.negative then ['-'] else []) ++
    (if d = 0 ∨ inside then positional l.keepPoint ds k else scientific l.signedExponent ds e)

/-- A double in a layout: `NaN`, `inf` and `-inf` have no digits. -/
def layout (l : Layout) (x : Float) : String :=
  match Binary.ofBits x.toBits with
  | some b => String.ofList (layoutFinite l b)
  | none => if x.isNaN then "NaN" else if x < 0 then "-inf" else "inf"

end QueryChain.Decimal
