/-!
# Reading doubles

A decimal numeral is an optional sign, digits with an optional point (at least one digit on either side),
and an optional exponent; the words `inf`, `infinity` and `nan`, in either case and with a sign, are read
too. The value is the nearest double.

* `ofDecimal`: the nearest double of `m · 10 ^ e`.
* `read`: the double that a text denotes.
-/

namespace QueryChain.Decimal

/-! ## Digits -/

/-- The number that a list of decimal digits denotes. -/
def natOfDigits (ds : List Char) : Nat :=
  ds.foldl (fun n d => 10 * n + (d.toNat - '0'.toNat)) 0

/-! ## Nearest doubles -/

/-- The nearest double of `m · 10 ^ e`. Beyond the range of doubles the power is not computed. -/
def ofDecimal (m : Nat) (e : Int) : Float :=
  if m = 0 then 0.0
  else
    let top := e + ((Nat.toDigits 10 m).length : Int)
    if 310 < top then 1.0 / 0.0
    else if top < -330 then 0.0
    else if 0 ≤ e then Float.ofScientific (m * Nat.pow 10 e.toNat) false 0
    else Float.ofScientific m true (-e).toNat

/-! ## Numerals -/

/-- An optional sign: whether it is a minus, and the rest. -/
def readSign : List Char → Bool × List Char
  | '-' :: rest => (true, rest)
  | '+' :: rest => (false, rest)
  | rest => (false, rest)

/-- An optional exponent that ends the text. -/
def readExponent : List Char → Option Int
  | [] => some 0
  | c :: rest =>
    if c = 'e' ∨ c = 'E' then
      let (negative, ds) := readSign rest
      if ds.isEmpty || !ds.all Char.isDigit then none
      else some (if negative then -(natOfDigits ds : Int) else natOfDigits ds)
    else none

/-- An unsigned numeral. -/
def readNumeral (cs : List Char) : Option Float := do
  let whole := cs.takeWhile Char.isDigit
  let (places, rest) :=
    match cs.dropWhile Char.isDigit with
    | '.' :: more => (more.takeWhile Char.isDigit, more.dropWhile Char.isDigit)
    | rest => ([], rest)
  if whole.isEmpty && places.isEmpty then none
  else
    let e ← readExponent rest
    some (ofDecimal (natOfDigits (whole ++ places)) (e - (places.length : Int)))

/-- The double that a text denotes. -/
def read (s : String) : Option Float := do
  let (negative, cs) := readSign s.toList
  let word := cs.map Char.toLower
  let magnitude ←
    if word = "inf".toList ∨ word = "infinity".toList then some (1.0 / 0.0)
    else if word = "nan".toList then some (0.0 / 0.0)
    else readNumeral cs
  some (if negative then -magnitude else magnitude)

end QueryChain.Decimal
