/-!
# Calendar dates

Days of the proleptic Gregorian calendar between 1 January -262143 and 31 December 262142.

* `Date.ofYmd_eq_some`: a triple is a date exactly when it is in range.
* `Date.addMonths_eq_some`: moving by months moves the month number and clamps the day.
-/

namespace QueryChain.Calendar

/-! ## Months -/

/-- A year of 366 days. -/
def isLeapYear (y : Int) : Bool :=
  y % 4 == 0 && (y % 100 != 0 || y % 400 == 0)

/-- Length of a month; zero where there is no such month. -/
def daysInMonth (y : Int) (m : Nat) : Nat :=
  match m with
  | 1 | 3 | 5 | 7 | 8 | 10 | 12 => 31
  | 4 | 6 | 9 | 11 => 30
  | 2 => if isLeapYear y then 29 else 28
  | _ => 0

/-- No month is longer than 31 days. -/
theorem daysInMonth_le (y : Int) (m : Nat) : daysInMonth y m ≤ 31 := by
  unfold daysInMonth
  split <;> (try split) <;> omega

/-- The least year of the calendar. -/
def minYear : Int := -262143

/-- The greatest year of the calendar. -/
def maxYear : Int := 262142

/-- Year, month and day name a day of the calendar. -/
def IsDate (y : Int) (m d : Nat) : Prop :=
  minYear ≤ y ∧ y ≤ maxYear ∧ 1 ≤ m ∧ m ≤ 12 ∧ 1 ≤ d ∧ d ≤ daysInMonth y m

instance (y : Int) (m d : Nat) : Decidable (IsDate y m d) := by
  unfold IsDate; infer_instance

/-- A day of the calendar. -/
structure Date where
  year : Int
  month : Nat
  day : Nat
  valid : IsDate year month day
deriving DecidableEq

instance : Inhabited Date := ⟨⟨1970, 1, 1, by decide⟩⟩

/-- The date with these parts, if there is one. -/
def Date.ofYmd (y : Int) (m d : Nat) : Option Date :=
  if h : IsDate y m d then some ⟨y, m, d, h⟩ else none

theorem Date.ofYmd_eq_some {y : Int} {m d : Nat} {date : Date} :
    Date.ofYmd y m d = some date ↔ date.year = y ∧ date.month = m ∧ date.day = d := by
  unfold Date.ofYmd
  constructor
  · intro h
    split at h
    · cases h; simp
    · cases h
  · rintro ⟨rfl, rfl, rfl⟩
    simp [date.valid]

@[simp] theorem Date.ofYmd_self (date : Date) :
    Date.ofYmd date.year date.month date.day = some date :=
  Date.ofYmd_eq_some.2 ⟨rfl, rfl, rfl⟩

/-! ## Moving by months -/

/-- Number of the month, counted from January of year 0. -/
def Date.monthNumber (date : Date) : Int :=
  date.year * 12 + (date.month : Int) - 1

/-- The date `k` months later; a day that the target month does not have becomes its last. -/
def Date.addMonths (date : Date) (k : Int) : Option Date :=
  let number := date.monthNumber + k
  let y := number / 12
  let m := (number % 12).toNat + 1
  Date.ofYmd y m (min date.day (daysInMonth y m))

/-- Moving by months moves the month number and clamps the day. -/
theorem Date.addMonths_eq_some {date moved : Date} {k : Int} (h : date.addMonths k = some moved) :
    moved.monthNumber = date.monthNumber + k ∧
      moved.day = min date.day (daysInMonth moved.year moved.month) := by
  obtain ⟨hy, hm, hd⟩ := Date.ofYmd_eq_some.1 h
  refine ⟨?_, by rw [hd, hy, hm]⟩
  simp only [Date.monthNumber] at *
  omega

/-! ## Days as numbers -/

/-- Number of the day, counted from 1 January 1970. Years begin in March, so that a leap day ends one. -/
def Date.dayNumber (date : Date) : Int :=
  let y := if date.month ≤ 2 then date.year - 1 else date.year
  let era := y / 400
  let yearOfEra := y - era * 400
  let monthFromMarch : Int := if date.month ≤ 2 then (date.month : Int) + 9 else (date.month : Int) - 3
  let dayOfYear := (153 * monthFromMarch + 2) / 5 + (date.day : Int) - 1
  let dayOfEra := yearOfEra * 365 + yearOfEra / 4 - yearOfEra / 100 + dayOfYear
  era * 146097 + dayOfEra - 719468

/-- The date with this number, if the calendar reaches it. -/
def Date.ofDayNumber (n : Int) : Option Date :=
  let z := n + 719468
  let era := z / 146097
  let dayOfEra := z - era * 146097
  let yearOfEra :=
    (dayOfEra - dayOfEra / 1460 + dayOfEra / 36524 - dayOfEra / 146096) / 365
  let dayOfYear := dayOfEra - (365 * yearOfEra + yearOfEra / 4 - yearOfEra / 100)
  let monthFromMarch := (5 * dayOfYear + 2) / 153
  let d := (dayOfYear - (153 * monthFromMarch + 2) / 5 + 1).toNat
  let m := (if monthFromMarch < 10 then monthFromMarch + 3 else monthFromMarch - 9).toNat
  let y := yearOfEra + era * 400 + (if m ≤ 2 then 1 else 0)
  Date.ofYmd y m d

end QueryChain.Calendar
