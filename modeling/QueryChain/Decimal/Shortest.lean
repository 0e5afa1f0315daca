/-!
# The fewest digits that read back

A finite double is `m · 2 ^ q`. Of the decimals in the interval of reals that round to it (ends included
when `m` is even), `shortest` picks one with the fewest digits, and among those the nearest; of two that are
equally near it takes the greater. All arithmetic is on natural numbers.

* `Binary.ofBits`: sign, `m` and `q` of a bit pattern.
* `shortest`: the digits and the power of ten of the shortest decimal.
-/

namespace QueryChain.Decimal

/-! ## Doubles as integers times powers of two -/

/-- A finite double: `±m · 2 ^ q`. -/
structure Binary where
  negative : Bool
  m : Nat
  q : Int
  /-- The double below is half as far away as the one above: `m` is the least of its exponent. -/
  lowerGapHalved : Bool
deriving Repr, DecidableEq

/-- The leading bit of a normal double, which is not stored. -/
def leadingBit : Nat := 4503599627370496

/-- The parts of a finite double, nothing for infinities and NaN. -/
def Binary.ofBits (bits : UInt64) : Option Binary :=
  let negative := bits >>> 63 == 1
  let exponent := ((bits >>> 52) &&& 0x7ff).toNat
  let fraction := (bits &&& 0xfffffffffffff).toNat
  if exponent = 0x7ff then none
  else if exponent = 0 then some ⟨negative, fraction, -1074, false⟩
  else some ⟨negative, fraction + leadingBit, (exponent : Int) - 1075, fraction == 0 && exponent > 1⟩

/-! ## The interval and the grids -/

/-- Four times the value and the ends of its rounding interval, over one denominator. -/
structure Interval where
  low : Nat
  mid : Nat
  high : Nat
  denominator : Nat
  /-- The ends belong to the interval. -/
  closed : Bool

/-- The reals that round to `m · 2 ^ q`. -/
def Binary.interval (x : Binary) : Interval :=
  let scale := Nat.pow 2 x.q.toNat
  { low := (4 * x.m - if x.lowerGapHalved then 1 else 2) * scale
    mid := 4 * x.m * scale
    high := (4 * x.m + 2) * scale
    denominator := 4 * Nat.pow 2 (-x.q).toNat
    closed := x.m % 2 == 0 }

/-- Whether the decimal `d · 10 ^ k` lies in the interval. -/
def Interval.holds (i : Interval) (d : Nat) (k : Int) : Bool :=
  let point := d * Nat.pow 10 k.toNat * i.denominator
  let unit := Nat.pow 10 (-k).toNat
  if i.closed then i.low * unit ≤ point && point ≤ i.high * unit
  else i.low * unit < point && point < i.high * unit

/-- The multiple of `10 ^ k` at or below the value, in units of `10 ^ k`. -/
def Interval.floorAt (i : Interval) (k : Int) : Nat :=
  i.mid * Nat.pow 10 (-k).toNat / (i.denominator * Nat.pow 10 k.toNat)

/-- Twice the rest of the value above `floorAt`, and the unit, over one denominator. -/
def Interval.restAt (i : Interval) (k : Int) : Nat × Nat :=
  let unit := i.denominator * Nat.pow 10 k.toNat
  (2 * (i.mid * Nat.pow 10 (-k).toNat % unit), unit)

/-- The neighbour of the value on the grid `10 ^ k` that lies in the interval, the nearer of two, the
greater of two equally near. -/
def Interval.gridHit (i : Interval) (k : Int) : Option Nat :=
  let below := i.floorAt k
  let (rest, unit) := i.restAt k
  match i.holds below k, i.holds (below + 1) k with
  | true, true => some (if rest < unit then below else below + 1)
  | true, false => some below
  | false, true => some (below + 1)
  | false, false => none

/-! ## The search -/

/-- Number of decimal digits of a number, none for zero. -/
def digitCount (n : Nat) : Nat :=
  if n = 0 then 0 else (Nat.toDigits 10 n).length

/-- The exponent `e` with `10 ^ e ≤ value < 10 ^ (e + 1)`, for a positive value. -/
def Interval.magnitude (i : Interval) : Int :=
  let whole := i.mid / i.denominator
  if 0 < whole then (digitCount whole : Int) - 1
  else
    -- Below one: scale up by powers of ten until a digit stands before the point.
    let fraction := (List.range 400).find? fun s => i.denominator ≤ i.mid * Nat.pow 10 s
    (-((fraction.getD 400 : Nat) : Int))

/-- Drops trailing zeros into the exponent. -/
def dropZeros : Nat → Nat → Int → Nat × Int
  | 0, d, k => (d, k)
  | fuel + 1, d, k => if d % 10 = 0 ∧ d ≠ 0 then dropZeros fuel (d / 10) (k + 1) else (d, k)

/-- Digits `d` and exponent `k` of the shortest decimal `d · 10 ^ k` that reads back as `m · 2 ^ q`; zero is
`0 · 10 ^ 0`. -/
def shortest (x : Binary) : Nat × Int :=
  if x.m = 0 then (0, 0)
  else
    let i := x.interval
    let e := i.magnitude
    let hit := (List.range 18).findSome? fun (n : Nat) =>
      (i.gridHit (e - (n : Int))).map fun d => (d, e - (n : Int))
    match hit with
    | some (d, k) => dropZeros 20 d k
    | none => (0, 0)

end QueryChain.Decimal
