import QueryChain.Method
import QueryChain.Proofs.Decimal.Whole

/-!
# Months and years later

A known moment is moved by whole months and years when the query is written. The amount passes through a double, its
months are counted in 64 bits, and of these only the low 32 are looked at. So a moment is moved exactly, or not at all if
the calendar ends before, as long as there are fewer than `2 ^ 32` months; from there on the counting starts again at
zero.

* `Moment.addMonths_eq_some_iff`: moving by months, by what it does to the month, the day and the time of day.
* `shiftMonths_eq_addMonths`: counting in 32 bits is taking the remainder, with the sign of the months.
* `Value.movesExactly_invoke`, `Value.invoke_months`: `AddMonths` and `AddYears` for every amount.
-/

namespace QueryChain.Calendar

/-! ## Months of the calendar -/

/-- The months of the calendar, counted from January of year 0. -/
theorem Date.monthNumber_bounds (date : Date) : -3145716 ≤ date.monthNumber ∧ date.monthNumber ≤ 3145715 := by
  obtain ⟨hmin, hmax, hfirst, hlast, -, -⟩ := date.valid
  unfold minYear at hmin
  unfold maxYear at hmax
  unfold Date.monthNumber
  omega

/-- A date is the one that moving by months gives if its month is that much later and its day is the clamped one. -/
theorem Date.addMonths_eq_some_iff {date moved : Date} {k : Int} :
    date.addMonths k = some moved ↔
      moved.monthNumber = date.monthNumber + k ∧
        moved.day = min date.day (daysInMonth moved.year moved.month) := by
  refine ⟨Date.addMonths_eq_some, fun ⟨hmonth, hday⟩ => ?_⟩
  obtain ⟨-, -, hfirst, hlast, -, -⟩ := moved.valid
  have hyear : moved.year = moved.monthNumber / 12 := by
    unfold Date.monthNumber
    omega
  have hnumber : moved.month = (moved.monthNumber % 12).toNat + 1 := by
    unfold Date.monthNumber
    omega
  rw [hyear, hnumber] at hday
  unfold Date.addMonths
  rw [← hmonth]
  exact Date.ofYmd_eq_some.mpr ⟨hyear, hnumber, hday⟩

/-- A moment is another one moved by `k` calendar months: a day that the month does not have is its last, and the time
of day is the same, a leap second included. -/
structure Moment.MovedBy (t : Moment) (k : Int) (moved : Moment) : Prop where
  month : moved.date.monthNumber = t.date.monthNumber + k
  day : moved.date.day = min t.date.day (daysInMonth moved.date.year moved.date.month)
  second : moved.second = t.second
  nano : moved.nano = t.nano

namespace Moment

variable {t moved : Moment} {k : Int}

theorem addMonths_eq_some_iff : t.addMonths k = some moved ↔ t.MovedBy k moved := by
  constructor
  · intro h
    obtain ⟨hsecond, hnano, hdate⟩ := addMonths_time h
    obtain ⟨hmonth, hday⟩ := Date.addMonths_eq_some hdate
    exact ⟨hmonth, hday, hsecond, hnano⟩
  · intro h
    have hdate := Date.addMonths_eq_some_iff.mpr ⟨h.month, h.day⟩
    rw [addMonths, hdate]
    obtain ⟨date, second, nano, _, _⟩ := moved
    cases h.second
    cases h.nano
    rfl

/-- The calendar is less than `2 ^ 31` months long. -/
theorem MovedBy.natAbs_lt (h : t.MovedBy k moved) : k.natAbs < 2147483648 := by
  have hfrom := t.date.monthNumber_bounds
  have hto := moved.date.monthNumber_bounds
  have hmonth := h.month
  omega

theorem addMonths_zero (t : Moment) : t.addMonths 0 = some t := by
  obtain ⟨-, -, -, -, -, hday⟩ := t.date.valid
  refine addMonths_eq_some_iff.mpr ⟨?_, ?_, rfl, rfl⟩
  · omega
  · exact (Nat.min_eq_left hday).symm

end Moment

end QueryChain.Calendar

namespace QueryChain

open Calendar

/-! ## Counting in 32 bits -/

/-- Nothing is taken from what 32 bits hold. -/
theorem tmod_eq_self {k : Int} (h : k.natAbs < 4294967296) : k.tmod 4294967296 = k := by
  rcases Int.le_total 0 k with hk | hk
  · exact Int.tmod_eq_of_lt hk (by omega)
  · have hneg : (-k).tmod 4294967296 = -k := Int.tmod_eq_of_lt (by omega) (by omega)
    rw [Int.neg_tmod] at hneg
    omega

/-- Months counted in 32 bits are the remainder of the months, with their sign. -/
theorem shiftMonths_eq_addMonths (t : Moment) (k : Int) : shiftMonths t k = t.addMonths (k.tmod 4294967296) := by
  have htmod : (if 0 ≤ k then ((k.natAbs % 4294967296 : Nat) : Int) else -((k.natAbs % 4294967296 : Nat) : Int)) =
      k.tmod 4294967296 := by
    cases k <;> rfl
  unfold shiftMonths monthsWithin32
  by_cases hfits : k.natAbs % 4294967296 ≤ 2147483647
  · by_cases hzero : k.natAbs % 4294967296 = 0
    · have hk : k.tmod 4294967296 = 0 := by
        rw [← htmod, hzero]
        omega
      rw [hk, Moment.addMonths_zero]
      simp [hzero]
    · rw [← htmod]
      simp [hfits, hzero]
  · -- beyond 31 bits there is no moment in the calendar
    have hnone : t.addMonths (k.tmod 4294967296) = none := by
      rw [Option.eq_none_iff_forall_ne_some]
      intro moved hmoved
      have hlt := (Moment.addMonths_eq_some_iff.mp hmoved).natAbs_lt
      rw [← htmod] at hlt
      omega
    rw [hnone]
    simp [hfits]

/-! ## Months and years -/

/-- The months that an amount of a part makes. -/
def DatePart.months (part : DatePart) (amount : Int) : Int :=
  if part = .year then amount * 12 else amount

/-- Where 64 bits hold the months, they are counted exactly. -/
theorem DatePart.toInt_monthsWithin64 (part : DatePart) {n : Int64} (hlow : -2 ^ 63 ≤ part.months n.toInt)
    (hhigh : part.months n.toInt < 2 ^ 63) : (part.monthsWithin64 n).toInt = part.months n.toInt := by
  unfold months at hlow hhigh
  unfold monthsWithin64 months
  split at hlow
  · rename_i hyear
    rw [if_pos hyear] at hhigh
    have htwelve : (12 : Int64).toInt = 12 := by decide
    rw [if_pos hyear, if_pos hyear, Int64.toInt_mul, htwelve]
    exact Int.bmod_eq_of_le (by omega) (by omega)
  · rename_i hmonth
    rw [if_neg hmonth, if_neg hmonth]

/-- A result moves a moment by exactly `k` months if the calendar goes that far, and is the fault otherwise. -/
structure MovesExactly (result : Except Fault Value) (t : Moment) (k : Int) (fault : Fault) : Prop where
  moved : ∀ later, result = .ok (.dateTime later) ↔ t.MovedBy k later
  beyond : (∀ later, ¬ t.MovedBy k later) → result = .error fault

namespace Value

variable {name : String} {part : DatePart}

/-- What adding months or years to a known moment yields, for every amount. -/
theorem movesExactly_invoke (hname : Method.ofName name = some (.add part)) (hpart : part = .month ∨ part = .year)
    (t : Moment) (n : Int64) :
    MovesExactly ((Value.dateTime t).invoke name [.int n]) t
      ((part.monthsWithin64 (Decimal.truncate (Decimal.ofInt64 n))).toInt.tmod 4294967296)
      (.value (.overflow name (Decimal.ofInt64 n))) := by
  have hshift : t.shift part (Decimal.ofInt64 n) =
      t.addMonths ((part.monthsWithin64 (Decimal.truncate (Decimal.ofInt64 n))).toInt.tmod 4294967296) := by
    rw [← shiftMonths_eq_addMonths]
    rcases hpart with rfl | rfl <;> rfl
  have hinvoke : (Value.dateTime t).invoke name [.int n] =
      (t.shift part (Decimal.ofInt64 n)).elim (.error (.value (.overflow name (Decimal.ofInt64 n))))
        (fun moved => .ok (.dateTime moved)) := by
    unfold Value.invoke
    rw [hname]
    cases hmoved : t.shift part (Decimal.ofInt64 n) <;>
      simp only [Value.amount, bind, Except.bind, hmoved] <;> rfl
  rw [hinvoke, hshift]
  cases hmoved : t.addMonths ((part.monthsWithin64 (Decimal.truncate (Decimal.ofInt64 n))).toInt.tmod 4294967296) with
  | none =>
    refine ⟨fun later => iff_of_false nofun fun hlater => ?_, fun _ => rfl⟩
    rw [Moment.addMonths_eq_some_iff.mpr hlater] at hmoved
    cases hmoved
  | some moved =>
    refine ⟨fun later => ?_, fun hnone => absurd (Moment.addMonths_eq_some_iff.mp hmoved) (hnone moved)⟩
    rw [← Moment.addMonths_eq_some_iff, hmoved, Option.elim_some, Except.ok.injEq, Value.dateTime.injEq,
      Option.some.injEq]

/-- `AddMonths` and `AddYears` of a known moment. Fewer than `2 ^ 32` months are exact; as long as 64 bits hold the months
meant, those that the amount makes as a double are taken without their bits above 32. -/
theorem invoke_months (hname : Method.ofName name = some (.add part)) (hpart : part = .month ∨ part = .year)
    (t : Moment) (n : Int64) :
    let result := (Value.dateTime t).invoke name [.int n]
    let overflow := Fault.value (.overflow name (Decimal.ofInt64 n))
    ((part.months n.toInt).natAbs < 4294967296 → MovesExactly result t (part.months n.toInt) overflow) ∧
      (-2 ^ 63 ≤ part.months n.toInt → part.months n.toInt < 2 ^ 63 →
        MovesExactly result t ((part.monthsWithin64 (Decimal.truncate (Decimal.ofInt64 n))).toInt.tmod 4294967296)
          overflow) := by
  have hmoves := movesExactly_invoke hname hpart t n
  refine ⟨fun hfew => ?_, fun _ _ => hmoves⟩
  have hn : n.toInt.natAbs < 2 ^ 53 := by
    unfold DatePart.months at hfew
    split at hfew <;> omega
  rwa [Decimal.truncate_ofInt64 hn, part.toInt_monthsWithin64 (by omega) (by omega), tmod_eq_self hfew] at hmoves

/-- A year before a leap day is the last day of February. -/
theorem invoke_months_leapDay :
    Method.ofName "AddYears" = some (.add .year) ∧
      (Value.dateTime (.midnight ⟨2024, 2, 29, by decide⟩)).invoke "AddYears" [.int (-1)] =
        .ok (.dateTime (.midnight ⟨2023, 2, 28, by decide⟩)) := by
  have hname : Method.ofName "AddYears" = some (.add .year) := by decide
  have hexact := (invoke_months hname (Or.inr rfl) (.midnight ⟨2024, 2, 29, by decide⟩) (-1)).1 (by decide)
  exact ⟨hname, (hexact.moved _).mpr ⟨by decide, by decide, rfl, rfl⟩⟩

/-- After `2 ^ 32` months it is the same day. -/
theorem not_movesExactly :
    ¬ ∀ (name : String) (part : DatePart) (t : Moment) (n : Int64),
      Method.ofName name = some (.add part) → (part = .month ∨ part = .year) →
        (part.months n.toInt).natAbs < 2 ^ 63 →
          MovesExactly ((Value.dateTime t).invoke name [.int n]) t (part.months n.toInt)
            (.value (.overflow name (Decimal.ofInt64 n))) := by
  intro h
  have hname : Method.ofName "AddMonths" = some (.add .month) := by decide
  have hmoves := movesExactly_invoke hname (Or.inl rfl) (.midnight ⟨2024, 1, 31, by decide⟩) 4294967296
  rw [Decimal.truncate_ofInt64 (by decide)] at hmoves
  have hsame := (hmoves.moved _).mpr (Moment.addMonths_eq_some_iff.mp (Moment.addMonths_zero _))
  have hmoved := (h "AddMonths" .month _ 4294967296 hname (Or.inl rfl) (by decide)).moved _ |>.mp hsame
  exact absurd hmoved.month (by decide)

end Value

end QueryChain
