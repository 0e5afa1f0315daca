import QueryChain.Calendar.Moment
import QueryChain.Decimal.Layout
import QueryChain.Decimal.Reading
import QueryChain.Text.Blank

/-!
# Written moments

Two written forms: `2024-03-01 12:30:00`, the form of SQL literals and texts, which drops the fraction, and
`2024-03-01T12:30:00.250`, with as many of 3, 6 or 9 decimals as the fraction needs. Years below 0 or
above 9999 carry a sign.

The reader is more generous than the writer. Numbers may have fewer digits and blanks before them; a year
with a sign may have any number of digits; the blank between date and time may be any number of blanks; the
fraction may have any number of digits, of which nine count.

* `Moment.readAny`: a stored moment, with a blank or `T` between date and time, or a date alone.
* `Moment.readLiteral`: the moment of a date literal, with a blank and without a fraction, or a date alone.
-/

namespace QueryChain.Calendar

open QueryChain.Text QueryChain.Decimal

/-! ## Writing -/

/-- A number with at least `width` digits. -/
def padded (width n : Nat) : List Char :=
  let ds := digits n
  zeros (width - ds.length) ++ ds

/-- A year: four digits from 0 to 9999, else a sign and at least four digits. -/
def writeYear (y : Int) : List Char :=
  if y < 0 then '-' :: padded 4 y.natAbs
  else if 9999 < y then '+' :: padded 4 y.natAbs
  else padded 4 y.natAbs

/-- A date. -/
def Date.write (date : Date) : List Char :=
  writeYear date.year ++ '-' :: padded 2 date.month ++ '-' :: padded 2 date.day

/-- A time of day, without its fraction. -/
def Moment.writeClock (t : Moment) : List Char :=
  padded 2 t.hour ++ ':' :: padded 2 t.minute ++ ':' :: padded 2 t.secondShown

/-- The form of SQL literals and texts. -/
def Moment.write (t : Moment) : String :=
  String.ofList (t.date.write ++ ' ' :: t.writeClock)

/-- The fraction of a second with the fewest of 3, 6 or 9 decimals, nothing if it is zero. -/
def writeFraction (nanos : Nat) : List Char :=
  if nanos = 0 then []
  else if nanos % 1000000 = 0 then '.' :: padded 3 (nanos / 1000000)
  else if nanos % 1000 = 0 then '.' :: padded 6 (nanos / 1000)
  else '.' :: padded 9 nanos

/-- The full form, with the fraction of the second. -/
def Moment.writeFull (t : Moment) : String :=
  String.ofList (t.date.write ++ 'T' :: t.writeClock ++ writeFraction t.fraction)

/-! ## Reading -/

/-- At least one digit and at most `most` of them, and the rest. -/
def readDigits (most : Option Nat) (cs : List Char) : Option (Nat × List Char) :=
  let run := cs.takeWhile Char.isDigit
  let ds := match most with
    | some n => run.take n
    | none => run
  if ds.isEmpty then none else some (natOfDigits ds, cs.drop ds.length)

/-- A number of at most two digits between `low` and `high`, after blanks. -/
def readPart (low high : Nat) (cs : List Char) : Option (Nat × List Char) := do
  let (n, rest) ← readDigits (some 2) (trimStart cs)
  if low ≤ n ∧ n ≤ high then some (n, rest) else none

/-- A year, after blanks: at most four digits, or a sign and any number of them. -/
def readYear (cs : List Char) : Option (Int × List Char) :=
  match trimStart cs with
  | '-' :: rest => (readDigits none rest).map fun (n, rest) => (-(n : Int), rest)
  | '+' :: rest => (readDigits none rest).map fun (n, rest) => ((n : Int), rest)
  | rest => (readDigits (some 4) rest).map fun (n, rest) => ((n : Int), rest)

/-- A given character. -/
def readChar (c : Char) : List Char → Option (List Char)
  | d :: rest => if d = c then some rest else none
  | [] => none

/-- A date and the rest. -/
def readDate (cs : List Char) : Option (Date × List Char) := do
  let (y, cs) ← readYear cs
  let cs ← readChar '-' cs
  let (m, cs) ← readPart 1 12 cs
  let cs ← readChar '-' cs
  let (d, cs) ← readPart 1 31 cs
  let date ← Date.ofYmd y m d
  some (date, cs)

/-- A fraction of a second in nanoseconds, zero if there is none, and the rest. -/
def readFraction : List Char → Option (Nat × List Char)
  | '.' :: rest => do
    let (n, _) ← readDigits (some 9) rest
    let shown := min 9 (rest.takeWhile Char.isDigit).length
    some (n * Nat.pow 10 (9 - shown), rest.dropWhile Char.isDigit)
  | rest => some (0, rest)

/-- A time of day, as seconds since midnight and nanoseconds, and the rest. -/
def readClock (fractional : Bool) (cs : List Char) : Option (Nat × Nat × List Char) := do
  let (h, cs) ← readPart 0 23 cs
  let cs ← readChar ':' cs
  let (m, cs) ← readPart 0 59 cs
  let cs ← readChar ':' cs
  let (s, cs) ← readPart 0 60 cs
  let (nanos, cs) ← if fractional then readFraction cs else some (0, cs)
  let leap := s = 60
  some (h * 3600 + m * 60 + min s 59, nanos + (if leap then nanosPerSecond else 0), cs)

/-- What stands between the date and the time. -/
inductive Separator where
  /-- Any number of blanks. -/
  | blanks
  /-- The letter `T`. -/
  | letter
deriving DecidableEq

/-- A separator and the rest. -/
def Separator.read : Separator → List Char → Option (List Char)
  | .blanks, cs => some (trimStart cs)
  | .letter, cs => readChar 'T' cs

/-- A whole text that is a moment of the given form. -/
def Moment.readForm (separator : Separator) (fractional : Bool) (cs : List Char) : Option Moment := do
  let (date, cs) ← readDate cs
  let cs ← separator.read cs
  let (second, nano, cs) ← readClock fractional cs
  if cs.isEmpty then Moment.of date second nano else none

/-- A whole text that is a date, as its midnight. -/
def Moment.readMidnight (cs : List Char) : Option Moment := do
  let (date, cs) ← readDate cs
  if cs.isEmpty then some (Moment.midnight date) else none

/-- A stored moment: either separator, with or without a fraction, or a date alone. -/
def Moment.readAny (cs : List Char) : Option Moment :=
  Moment.readForm .blanks true cs <|> Moment.readForm .letter true cs <|> Moment.readMidnight cs

/-- A moment in the text of a date literal: blanks between date and time and no fraction, or a date
alone. -/
def Moment.readLiteral (cs : List Char) : Option Moment :=
  Moment.readForm .blanks false cs <|> Moment.readMidnight cs

end QueryChain.Calendar
