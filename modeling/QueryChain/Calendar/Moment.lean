import QueryChain.Calendar.Date

/-!
# Moments

A date and a time of day to the nanosecond, without a time zone. A leap second is a second with a billion
nanoseconds or more: it is shown as the second after, kept by moves of whole months, and left by other moves
as soon as they step out of it. Clocks have one after the second 59 of a minute only, and only there is it
shown as a second of its own, the second 60; but a moment may have one after any second.

* `Moment.LeapEndsMinute`: a leap second, if any, follows the second 59.
* `Moment.addMonths_time`: moving by months keeps the time of day, a leap second included.
* `Moment.wholeSecond_fraction`: dropping the fraction of a second leaves none, also in a leap second.
-/

namespace QueryChain.Calendar

/-- Nanoseconds of a second. -/
def nanosPerSecond : Nat := 1000000000

/-- Seconds of a day. -/
def secondsPerDay : Nat := 86400

/-- A date and a time of day. -/
structure Moment where
  date : Date
  /-- Seconds since midnight. -/
  second : Nat
  /-- Nanoseconds into the second; a billion or more within a leap second. -/
  nano : Nat
  second_lt : second < secondsPerDay
  nano_lt : nano < 2 * nanosPerSecond
deriving DecidableEq

/-- Midnight at the start of a date. -/
def Moment.midnight (date : Date) : Moment :=
  ⟨date, 0, 0, by decide, by decide⟩

instance : Inhabited Moment := ⟨Moment.midnight default⟩

/-- The moment with these parts, if there is one. -/
def Moment.of (date : Date) (second nano : Nat) : Option Moment :=
  if h : second < secondsPerDay ∧ nano < 2 * nanosPerSecond then some ⟨date, second, nano, h.1, h.2⟩ else none

/-! ## Parts -/

/-- The hour shown. -/
def Moment.hour (t : Moment) : Nat := t.second / 3600

/-- The minute shown. -/
def Moment.minute (t : Moment) : Nat := t.second / 60 % 60

/-- Within a leap second. -/
def Moment.isLeap (t : Moment) : Bool := nanosPerSecond ≤ t.nano

/-- A leap second, if the moment is in one, is the last of its minute. -/
def Moment.LeapEndsMinute (t : Moment) : Prop := t.isLeap = true → t.second % 60 = 59

instance (t : Moment) : Decidable t.LeapEndsMinute :=
  inferInstanceAs (Decidable (t.isLeap = true → t.second % 60 = 59))

/-- The second shown: one more within a leap second. -/
def Moment.secondShown (t : Moment) : Nat :=
  t.second % 60 + (if t.isLeap then 1 else 0)

/-- The nanoseconds shown. -/
def Moment.fraction (t : Moment) : Nat := t.nano % nanosPerSecond

/-- The moment with the fraction of its second dropped. -/
def Moment.wholeSecond (t : Moment) : Moment :=
  { t with
    nano := if t.isLeap then nanosPerSecond else 0
    nano_lt := by split <;> simp [nanosPerSecond] }

theorem Moment.wholeSecond_fraction (t : Moment) : t.wholeSecond.fraction = 0 := by
  simp only [fraction, wholeSecond]
  split <;> simp [nanosPerSecond]

/-! ## Moving -/

/-- The moment `k` months later, at the same time of day. -/
def Moment.addMonths (t : Moment) (k : Int) : Option Moment :=
  (t.date.addMonths k).map fun date => { t with date }

/-- Moving by months keeps the time of day, a leap second included. -/
theorem Moment.addMonths_time {t moved : Moment} {k : Int} (h : t.addMonths k = some moved) :
    moved.second = t.second ∧ moved.nano = t.nano ∧ t.date.addMonths k = some moved.date := by
  obtain ⟨date, hd, rfl⟩ := Option.map_eq_some_iff.1 h
  exact ⟨rfl, rfl, hd⟩

/-- The moment a number of seconds and nanoseconds (of one sign) later, once outside a leap second. -/
def Moment.shiftPlain (date : Date) (second nano : Int) : Option Moment := do
  let carry := nano / (nanosPerSecond : Int)
  let total := second + carry
  let moved ← Date.ofDayNumber (date.dayNumber + total / (secondsPerDay : Int))
  Moment.of moved (total % (secondsPerDay : Int)).toNat (nano % (nanosPerSecond : Int)).toNat

/-- The moment a number of milliseconds later. Within a leap second the clock stands at the second before with
a billion nanoseconds more; a step that stays inside keeps it, a step forward leaves it from its start, a step
back from its end. -/
def Moment.addMillis (t : Moment) (ms : Int) : Option Moment :=
  let seconds := Int.tdiv ms 1000
  let nanos := Int.tmod ms 1000 * 1000000
  let second : Int := t.second
  let nano : Int := t.nano
  if t.isLeap then
    if 0 < seconds ∨ (0 < nanos ∧ 2 * (nanosPerSecond : Int) ≤ nano + nanos) then
      Moment.shiftPlain t.date (second + seconds) (nano - nanosPerSecond + nanos)
    else if seconds < 0 then
      Moment.shiftPlain t.date (second + 1 + seconds) (nano - nanosPerSecond + nanos)
    else Moment.of t.date t.second (nano + nanos).toNat
  else Moment.shiftPlain t.date (second + seconds) (nano + nanos)

end QueryChain.Calendar
