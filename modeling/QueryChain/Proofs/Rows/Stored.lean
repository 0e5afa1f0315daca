import QueryChain.Proofs.Grammar.Token
import QueryChain.Rows.Materialize

/-!
# Stored moments read back

A driver without moments of its own keeps them as texts: as the text of a value, or as what stands between the quotes
of its literal. Both are the same text, which is read back to the second, whatever blanks have come around it. Only a
leap second that does not end a minute is lost: it has the text of the second that follows it.

* `blankFreeEnds_write`: the text of a moment neither begins nor ends with a blank.
* `readMoment_stored`: a moment that was stored as a text is read back, but for the fraction of its second.
* `readMoment_write_of_not_leapEndsMinute`: a leap second in the middle of a minute is read back as the next second.
-/

namespace QueryChain

open Text Calendar
open Grammar (BlankFreeEnds trim_append_blanks exists_eq_append_singleton)

/-! ## The ends of a written moment -/

/-- A year begins with a sign or a digit. -/
theorem writeYear_eq_cons (y : Int) : ∃ c more, writeYear y = c :: more ∧ isBlank c = false := by
  obtain ⟨d, ds, hpadded, hd⟩ := padded_eq_cons 4 y.natAbs
  unfold writeYear
  split
  · exact ⟨'-', _, rfl, rfl⟩
  · split
    · exact ⟨'+', _, rfl, rfl⟩
    · exact ⟨d, ds, hpadded, isBlank_of_isDigit hd⟩

/-- The text of a moment neither begins nor ends with a blank. -/
theorem blankFreeEnds_write (t : Moment) : BlankFreeEnds t.write.toList := by
  obtain ⟨c, more, hyear, hc⟩ := writeYear_eq_cons t.date.year
  obtain ⟨less, d, hseconds, hd⟩ := exists_eq_append_singleton (padded_ne_nil 2 t.secondShown)
  rw [Moment.write, String.toList_ofList]
  constructor
  · refine ⟨c, more ++ ('-' :: padded 2 t.date.month ++ '-' :: padded 2 t.date.day ++ ' ' :: t.writeClock), ?_, hc⟩
    simp [Date.write, hyear]
  · refine ⟨t.date.write ++ ' ' :: (padded 2 t.hour ++ ':' :: (padded 2 t.minute ++ ':' :: less)), d, ?_, ?_⟩
    · simp [Moment.writeClock, hseconds]
    · exact isBlank_of_isDigit (isDigit_of_mem_padded hd)

/-! ## Reading them back -/

theorem readMoment_write {t : Moment} (ht : t.LeapEndsMinute) {before after : String}
    (hbefore : ∀ c ∈ before.toList, isBlank c = true) (hafter : ∀ c ∈ after.toList, isBlank c = true) : readMoment (before ++ t.write ++ after) = .ok t.wholeSecond := by
  have htrim : trim (before ++ t.write ++ after).toList = t.write.toList := by
    rw [String.toList_append, String.toList_append, List.append_assoc]
    exact trim_append_blanks hbefore hafter (blankFreeEnds_write t)
  simp only [readMoment, htrim, Moment.readAny_write ht]

/-- A moment whose leap second, if any, ends a minute and that was stored as a text, with any blanks around it, is read
back, but for the fraction of its second: from the text of the value, from what stands between the quotes of its
literal, and from a column that holds the text that the value was coerced to. -/
theorem readMoment_stored {t : Moment} (ht : t.LeapEndsMinute) {before after : String}
    (hbefore : ∀ c ∈ before.toList, isBlank c = true) (hafter : ∀ c ∈ after.toList, isBlank c = true) :
    (t.wholeSecond.date = t.date ∧ t.wholeSecond.second = t.second ∧ t.wholeSecond.isLeap = t.isLeap ∧
      t.wholeSecond.fraction = 0) ∧
    readMoment (before ++ (Value.dateTime t).display ++ after) = .ok t.wholeSecond ∧
    (∀ bools, ∃ content, (Value.dateTime t).literal bools = .ok ("'" ++ content ++ "'") ∧
      readMoment (before ++ content ++ after) = .ok t.wholeSecond) ∧
    ∃ text, (Value.dateTime t).coerce .text = .ok (.text text) ∧
      ∀ (c : Cursor) (column : String) (index : Nat), c.ordinal column = some index → c.value index = .text text →
        c.read column (some .dateTime) = .ok (.dateTime t.wholeSecond) := by
  have hleap : t.wholeSecond.isLeap = t.isLeap := by
    show decide (nanosPerSecond ≤ if t.isLeap then nanosPerSecond else 0) = t.isLeap
    cases t.isLeap <;> rfl
  have hread := readMoment_write ht hbefore hafter
  refine ⟨⟨rfl, rfl, hleap, t.wholeSecond_fraction⟩, hread, fun bools => ⟨t.write, rfl, hread⟩, t.write, rfl, ?_⟩
  intro c column index hordinal hvalue
  have hnone : ∀ c ∈ "".toList, isBlank c = true := List.forall_mem_nil _
  have hplain := readMoment_write ht hnone hnone
  rw [String.append_empty, String.empty_append] at hplain
  simp only [Cursor.read, hordinal, Cursor.readAt, hvalue]
  show (readMoment t.write >>= fun t => pure (Value.dateTime t)) = _
  rw [hplain]
  rfl

/-- A quarter into a leap second at the end of a year before the first. -/
def leapSecond : Moment :=
  ⟨⟨-4712, 12, 31, by decide⟩, 86399, 1250000000, by decide, by decide⟩

theorem readMoment_stored_leapSecond :
    leapSecond.LeapEndsMinute ∧ readMoment "\n -4712-12-31 23:59:60\u3000" = .ok leapSecond.wholeSecond ∧
      leapSecond.wholeSecond.second = 86399 ∧ leapSecond.wholeSecond.nano = 1000000000 := by
  have hbefore : ∀ c ∈ "\n ".toList, isBlank c = true := List.all_eq_true.1 (by decide)
  have hafter : ∀ c ∈ "\u3000".toList, isBlank c = true := List.all_eq_true.1 (by decide)
  have hends : leapSecond.LeapEndsMinute := by decide
  obtain ⟨-, hread, -⟩ := readMoment_stored hends hbefore hafter
  exact ⟨hends, hread, rfl, rfl⟩

/-- A leap second that does not end a minute has the text of the second that follows it, and is read back as that. -/
theorem readMoment_write_of_not_leapEndsMinute {t : Moment} (ht : ¬ t.LeapEndsMinute) {before after : String}
    (hbefore : ∀ c ∈ before.toList, isBlank c = true) (hafter : ∀ c ∈ after.toList, isBlank c = true) :
    ∃ next : Moment, (next.date = t.date ∧ next.second = t.second + 1 ∧ next.nano = 0) ∧
      readMoment (before ++ t.write ++ after) = .ok next := by
  obtain ⟨hleap, hminute⟩ : t.isLeap = true ∧ t.second % 60 ≠ 59 := by simpa [Moment.LeapEndsMinute] using ht
  have hday := t.second_lt
  have hlt : t.second + 1 < secondsPerDay := by
    unfold secondsPerDay at hday ⊢
    omega
  let next : Moment := ⟨t.date, t.second + 1, 0, hlt, by decide⟩
  have hplain : next.isLeap = false := rfl
  have hends : next.LeapEndsMinute := fun h => absurd h (by rw [hplain]; decide)
  -- the minute does not change, so the second shown is the next one in both
  have hhour : next.hour = t.hour := show (t.second + 1) / 3600 = t.second / 3600 by omega
  have hminutes : next.minute = t.minute := show (t.second + 1) / 60 % 60 = t.second / 60 % 60 by omega
  have hsecond : next.secondShown = t.secondShown := by
    simp only [Moment.secondShown, hplain, hleap, if_true, Bool.false_eq_true, if_false]
    show (t.second + 1) % 60 + 0 = t.second % 60 + 1
    omega
  have hwrite : next.write = t.write := by
    simp only [Moment.write, Moment.writeClock, hhour, hminutes, hsecond, next]
  have hwhole : next.wholeSecond = next := rfl
  exact ⟨next, ⟨rfl, rfl, rfl⟩, by rw [← hwrite, readMoment_write hends hbefore hafter, hwhole]⟩

/-- A third of a second into a leap second after 23:56:04. -/
def strayLeapSecond : Moment :=
  ⟨⟨2016, 12, 31, by decide⟩, 86164, 1333333333, by decide, by decide⟩

theorem not_readMoment_stored :
    ¬ ∀ (t : Moment) (before after : String), (∀ c ∈ before.toList, isBlank c = true) →
      (∀ c ∈ after.toList, isBlank c = true) →
        readMoment (before ++ (Value.dateTime t).display ++ after) = .ok t.wholeSecond := by
  intro h
  have hnone : ∀ c ∈ "".toList, isBlank c = true := List.forall_mem_nil _
  obtain ⟨next, ⟨-, hsecond, -⟩, hnext⟩ :=
    readMoment_write_of_not_leapEndsMinute (show ¬ strayLeapSecond.LeapEndsMinute by decide) hnone hnone
  have hread : Except.ok next = Except.ok strayLeapSecond.wholeSecond :=
    hnext.symm.trans (h strayLeapSecond "" "" hnone hnone)
  cases hread
  exact absurd hsecond (by decide)

end QueryChain
