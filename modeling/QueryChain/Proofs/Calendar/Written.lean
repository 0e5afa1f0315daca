import Mathlib.Algebra.Group.Nat.Defs
import QueryChain.Calendar.Text

/-!
# Written moments read back

The writer pads every number to a fixed width, so the reader, which takes at most that many digits, stops
where the number ends.

* `readDate_write`: a written date reads back, whatever follows it that is no digit.
* `readClock_write`: so does a written time of day.
* `Moment.readLiteral_write`: a moment without a fraction reads back from the form of literals.
* `Moment.readAny_write`: as a stored text a moment reads back to the second.

A leap second reads back where it ends a minute. After another second it is shown as the plain second that follows.
-/

namespace QueryChain.Calendar

open QueryChain.Text QueryChain.Decimal

/-! ## Digits -/

/-- A text that does not go on with a digit. -/
def NoDigit (cs : List Char) : Prop :=
  ∀ c rest, cs = c :: rest → c.isDigit = false

theorem noDigit_nil : NoDigit [] := by
  intro c rest h
  cases h

theorem noDigit_cons {c : Char} {cs : List Char} (h : c.isDigit = false) : NoDigit (c :: cs) := by
  intro d rest hd
  cases hd
  exact h

theorem takeWhile_isDigit_append {ds rest : List Char} (hd : ∀ c ∈ ds, c.isDigit = true)
    (hr : NoDigit rest) : (ds ++ rest).takeWhile Char.isDigit = ds := by
  rw [List.takeWhile_append_of_pos hd]
  cases rest with
  | nil => simp
  | cons c rest => simp [hr c rest rfl]

theorem dropWhile_isDigit_append {ds rest : List Char} (hd : ∀ c ∈ ds, c.isDigit = true)
    (hr : NoDigit rest) : (ds ++ rest).dropWhile Char.isDigit = rest := by
  rw [List.dropWhile_append_of_pos hd]
  cases rest with
  | nil => rfl
  | cons c rest => simp [hr c rest rfl]

theorem isDigit_of_mem_digits {n : Nat} {c : Char} (h : c ∈ digits n) : c.isDigit = true :=
  Nat.isDigit_of_mem_toDigits (by decide) (by decide) h

theorem digits_ne_nil (n : Nat) : digits n ≠ [] := Nat.toDigits_ne_nil

theorem natOfDigits_digits (n : Nat) : natOfDigits (digits n) = n := by
  have h := Nat.ofDigitChars_ten_toDigits (n := n)
  rw [Nat.ofDigitChars_eq_foldl] at h
  exact h

theorem natOfDigits_zeros_append (k : Nat) (ds : List Char) :
    natOfDigits (zeros k ++ ds) = natOfDigits ds := by
  induction k with
  | zero => rfl
  | succ k ih => exact ih

/-! ## Padded numbers -/

theorem isDigit_of_mem_padded {w n : Nat} {c : Char} (h : c ∈ padded w n) : c.isDigit = true := by
  unfold padded at h
  rcases List.mem_append.1 h with h | h
  · rw [List.eq_of_mem_replicate h]
    decide
  · exact isDigit_of_mem_digits h

theorem padded_ne_nil (w n : Nat) : padded w n ≠ [] := by
  unfold padded
  intro h
  exact digits_ne_nil n (List.append_eq_nil_iff.1 h).2

theorem natOfDigits_padded (w n : Nat) : natOfDigits (padded w n) = n := by
  unfold padded
  rw [natOfDigits_zeros_append, natOfDigits_digits]

/-- A number that fits into the width takes exactly that many digits. -/
theorem length_padded {w n : Nat} (hw : 0 < w) (h : n < 10 ^ w) : (padded w n).length = w := by
  have hd : (digits n).length ≤ w := (Nat.length_toDigits_le_iff (by decide) hw).2 h
  simp only [padded, zeros, List.length_append, List.length_replicate]
  omega

/-- A padded number reads back where the bound on its digits is its width. -/
theorem readDigits_padded {w n : Nat} (hw : 0 < w) (h : n < 10 ^ w) {rest : List Char}
    (hr : NoDigit rest) : readDigits (some w) (padded w n ++ rest) = some (n, rest) := by
  have hlen := length_padded hw h
  have hne : (padded w n).isEmpty = false := by simp [padded_ne_nil]
  simp only [readDigits, takeWhile_isDigit_append (fun _ => isDigit_of_mem_padded) hr]
  rw [List.take_of_length_le (by omega), hne, natOfDigits_padded]
  simp

/-- A padded number reads back where its digits are not bounded. -/
theorem readDigits_padded_unbounded (w n : Nat) {rest : List Char} (hr : NoDigit rest) :
    readDigits none (padded w n ++ rest) = some (n, rest) := by
  have hne : (padded w n).isEmpty = false := by simp [padded_ne_nil]
  simp only [readDigits, takeWhile_isDigit_append (fun _ => isDigit_of_mem_padded) hr, hne,
    natOfDigits_padded]
  simp

theorem isBlank_of_isDigit {c : Char} (h : c.isDigit = true) : isBlank c = false := by
  simp only [Char.isDigit, Bool.and_eq_true, decide_eq_true_eq, UInt32.le_iff_toNat_le] at h
  have hrange : ∀ n < 58, 48 ≤ n → within blankBoundaries n = false := by decide
  have hlow : 48 ≤ c.toNat := h.1
  have hhigh : c.toNat ≤ 57 := h.2
  exact hrange c.toNat (by omega) hlow

theorem padded_eq_cons (w n : Nat) : ∃ d ds, padded w n = d :: ds ∧ d.isDigit = true := by
  cases h : padded w n with
  | nil => exact absurd h (padded_ne_nil w n)
  | cons d ds => exact ⟨d, ds, rfl, isDigit_of_mem_padded (h ▸ List.mem_cons_self)⟩

/-- No blanks are skipped in front of a written number. -/
theorem trimStart_padded_append (w n : Nat) (rest : List Char) :
    trimStart (padded w n ++ rest) = padded w n ++ rest := by
  obtain ⟨d, ds, h, hd⟩ := padded_eq_cons w n
  simp [h, trimStart, isBlank_of_isDigit hd]

theorem readPart_padded (low high : Nat) {n : Nat} (h : n < 100) (hlow : low ≤ n) (hhigh : n ≤ high)
    {rest : List Char} (hr : NoDigit rest) :
    readPart low high (padded 2 n ++ rest) = some (n, rest) := by
  simp only [readPart, trimStart_padded_append]
  rw [readDigits_padded (by decide) (by omega) hr]
  simp [hlow, hhigh]

/-! ## Dates and times of day -/

theorem readYear_writeYear (y : Int) {rest : List Char} (hr : NoDigit rest) :
    readYear (writeYear y ++ rest) = some (y, rest) := by
  have hunbounded := readDigits_padded_unbounded 4 y.natAbs hr
  unfold writeYear
  split
  case isTrue h =>
    have hskip : trimStart ('-' :: padded 4 y.natAbs ++ rest) = '-' :: padded 4 y.natAbs ++ rest := rfl
    rw [readYear, hskip]
    simp only [List.cons_append, hunbounded, Option.map_some, Option.some.injEq, Prod.mk.injEq, and_true]
    omega
  case isFalse h =>
    split
    case isTrue h9 =>
      have hskip : trimStart ('+' :: padded 4 y.natAbs ++ rest) = '+' :: padded 4 y.natAbs ++ rest := rfl
      rw [readYear, hskip]
      simp only [List.cons_append, hunbounded, Option.map_some, Option.some.injEq, Prod.mk.injEq, and_true]
      omega
    case isFalse h9 =>
      have hread := readDigits_padded (w := 4) (n := y.natAbs) (by decide) (by omega) hr
      obtain ⟨d, ds, hd, hdigit⟩ := padded_eq_cons 4 y.natAbs
      rw [readYear, trimStart_padded_append]
      rw [hd] at hread ⊢
      -- The first digit is no sign, so the last case of the reader applies.
      have hminus : d ≠ '-' := by rintro rfl; exact absurd hdigit (by decide)
      have hplus : d ≠ '+' := by rintro rfl; exact absurd hdigit (by decide)
      rw [List.cons_append] at hread ⊢
      split
      case h_1 heq => cases heq; exact absurd rfl hminus
      case h_2 heq => cases heq; exact absurd rfl hplus
      case h_3 =>
        rw [hread, Option.map_some]
        simp only [Option.some.injEq, Prod.mk.injEq, and_true]
        omega

/-- A written date reads back, whatever follows it that is no digit. -/
theorem readDate_write (date : Date) {rest : List Char} (hr : NoDigit rest) :
    readDate (date.write ++ rest) = some (date, rest) := by
  obtain ⟨-, -, hm1, hm2, hd1, hd2⟩ := date.valid
  have hday := daysInMonth_le date.year date.month
  have hmonthTail : NoDigit ('-' :: (padded 2 date.day ++ rest)) := noDigit_cons rfl
  have hyearTail : NoDigit ('-' :: (padded 2 date.month ++ '-' :: (padded 2 date.day ++ rest))) :=
    noDigit_cons rfl
  have hwrite : date.write ++ rest =
      writeYear date.year ++ '-' :: (padded 2 date.month ++ '-' :: (padded 2 date.day ++ rest)) := by
    simp [Date.write]
  rw [hwrite]
  simp only [readDate, readYear_writeYear date.year hyearTail, readChar, if_true,
    readPart_padded _ _ (by omega) hm1 hm2 hmonthTail,
    readPart_padded 1 31 (by omega) hd1 (by omega) hr, Date.ofYmd_self,
    Option.bind_eq_bind, Option.bind_some]

section

variable {t : Moment} (ht : t.LeapEndsMinute)
include ht

/-- Second 60 is shown exactly within a leap second. -/
theorem secondShown_eq_sixty : t.secondShown = 60 ↔ t.isLeap = true := by
  unfold Moment.secondShown
  constructor
  · intro h
    split at h
    · assumption
    · omega
  · intro h
    rw [if_pos h, ht h]

theorem seconds_of_clock : t.hour * 3600 + t.minute * 60 + min t.secondShown 59 = t.second := by
  unfold Moment.hour Moment.minute Moment.secondShown
  split
  case isTrue h => have := ht h; omega
  case isFalse => omega

/-- A written time of day reads back as the seconds since midnight and the start of a leap second, whether or not a
fraction might follow. -/
theorem readClock_write (fractional : Bool) :
    readClock fractional t.writeClock = some (t.second, if t.isLeap then nanosPerSecond else 0, []) := by
  have hsecond := t.second_lt
  simp only [secondsPerDay] at hsecond
  have hhour : t.hour ≤ 23 := by unfold Moment.hour; omega
  have hminute : t.minute ≤ 59 := by unfold Moment.minute; omega
  have hshown : t.secondShown ≤ 60 := by unfold Moment.secondShown; split <;> omega
  have hclock : t.writeClock = padded 2 t.hour ++
      ':' :: (padded 2 t.minute ++ ':' :: (padded 2 t.secondShown ++ [])) := by
    simp [Moment.writeClock]
  have hminuteTail : NoDigit (':' :: (padded 2 t.secondShown ++ [])) := noDigit_cons rfl
  have hhourTail : NoDigit (':' :: (padded 2 t.minute ++ ':' :: (padded 2 t.secondShown ++ []))) :=
    noDigit_cons rfl
  have hnone : readFraction [] = some (0, []) := rfl
  rw [hclock]
  simp only [readClock, readPart_padded 0 _ (by omega) (Nat.zero_le _) hhour hhourTail,
    readPart_padded 0 _ (by omega) (Nat.zero_le _) hminute hminuteTail,
    readPart_padded 0 _ (by omega) (Nat.zero_le _) hshown noDigit_nil, readChar, if_true,
    Option.bind_eq_bind, Option.bind_some, seconds_of_clock ht]
  by_cases h : t.isLeap = true
  · simp [h, (secondShown_eq_sixty ht).2 h, hnone]
  · simp [h, mt (secondShown_eq_sixty ht).1 h, hnone]

end

/-! ## Moments -/

theorem trimStart_writeClock (t : Moment) : trimStart (' ' :: t.writeClock) = t.writeClock := by
  have h := trimStart_padded_append 2 t.hour
    (':' :: padded 2 t.minute ++ ':' :: padded 2 t.secondShown)
  simpa [trimStart, Moment.writeClock, show isBlank ' ' = true from rfl] using h

theorem Moment.of_self (t : Moment) : Moment.of t.date t.second t.nano = some t := by
  rw [Moment.of, dif_pos ⟨t.second_lt, t.nano_lt⟩]

/-- Without a fraction there is nothing to drop. -/
theorem Moment.wholeSecond_eq_self {t : Moment} (h : t.fraction = 0) : t.wholeSecond = t := by
  have hnano : (if t.isLeap then nanosPerSecond else 0) = t.nano := by
    have hlt := t.nano_lt
    simp only [Moment.fraction, nanosPerSecond] at h hlt
    unfold Moment.isLeap nanosPerSecond
    split <;> simp_all <;> omega
  obtain ⟨date, second, nano, hsecond, hlt⟩ := t
  simp only [wholeSecond, Moment.mk.injEq, true_and]
  exact hnano

/-- A written moment reads back to the second, also within a leap second. -/
theorem Moment.readForm_write (fractional : Bool) {t : Moment} (ht : t.LeapEndsMinute) :
    Moment.readForm .blanks fractional t.write.toList = some t.wholeSecond := by
  have hspace : NoDigit (' ' :: t.writeClock) := noDigit_cons rfl
  have hof : Moment.of t.date t.second (if t.isLeap then nanosPerSecond else 0) = some t.wholeSecond :=
    t.wholeSecond.of_self
  simp only [Moment.write, String.toList_ofList, Moment.readForm, readDate_write t.date hspace,
    Separator.read, trimStart_writeClock, readClock_write ht, Option.bind_eq_bind, Option.bind_some,
    List.isEmpty_nil, if_true, hof]

/-- A moment without a fraction reads back from the form of literals, also within a leap second. -/
theorem Moment.readLiteral_write {t : Moment} (ht : t.LeapEndsMinute) (h : t.fraction = 0) :
    Moment.readLiteral t.write.toList = some t := by
  rw [Moment.readLiteral, Moment.readForm_write false ht, Moment.wholeSecond_eq_self h]
  rfl

/-! ## The forms of stored moments -/

/-- A time of day that is read to the end without a fraction is read with one, which is zero. -/
theorem readClock_true_of_false {cs : List Char} {second nano : Nat}
    (h : readClock false cs = some (second, nano, [])) : readClock true cs = some (second, nano, []) := by
  simp only [readClock, Option.bind_eq_bind, Option.bind_eq_some_iff, Prod.exists, Bool.false_eq_true, if_false,
    if_true, Option.some.injEq, Prod.mk.injEq] at h ⊢
  obtain ⟨hour, a, ha, b, hb, minute, c, hc, d, hd, s, e, he, nanos, f, ⟨rfl, rfl⟩, hsecond, hnano, rfl⟩ := h
  exact ⟨hour, a, ha, b, hb, minute, c, hc, d, hd, s, [], he, 0, [], rfl, hsecond, hnano, rfl⟩

theorem Moment.readForm_true_of_false {separator : Separator} {cs : List Char} {t : Moment}
    (h : readForm separator false cs = some t) : readForm separator true cs = some t := by
  simp only [readForm, Option.bind_eq_bind, Option.bind_eq_some_iff, Prod.exists] at h ⊢
  obtain ⟨date, a, ha, b, hb, second, nano, c, hc, hof⟩ := h
  split at hof
  · next hempty =>
    obtain rfl := List.isEmpty_iff.mp hempty
    exact ⟨date, a, ha, b, hb, second, nano, [], readClock_true_of_false hc, by rw [if_pos hempty, hof]⟩
  · cases hof

/-- To try a form without a fraction first makes no difference: the form with one reads the same. -/
theorem Moment.readForm_false_or_true (separator : Separator) (cs : List Char) :
    (readForm separator false cs <|> readForm separator true cs) = readForm separator true cs := by
  cases h : readForm separator false cs with
  | none => rfl
  | some t =>
    rw [readForm_true_of_false h]
    rfl

/-- A stored moment is read by the first form that fits, of four with a time of day, and a date alone. -/
theorem Moment.readAny_eq_inOrder (cs : List Char) :
    Moment.readAny cs =
      (readForm .blanks false cs <|> readForm .blanks true cs <|> readForm .letter false cs <|>
        readForm .letter true cs <|> readMidnight cs) := by
  have hassoc (a b c : Option Moment) : (a <|> b <|> c) = ((a <|> b) <|> c) := by cases a <;> rfl
  rw [hassoc (readForm .letter false cs), readForm_false_or_true, hassoc, readForm_false_or_true]
  rfl

/-- A written moment is read by the first of the forms. -/
theorem Moment.readAny_write {t : Moment} (ht : t.LeapEndsMinute) :
    Moment.readAny t.write.toList = some t.wholeSecond := by
  rw [Moment.readAny_eq_inOrder, Moment.readForm_write false ht]
  rfl

end QueryChain.Calendar
