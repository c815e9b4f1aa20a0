import NetAudit.Calendar.Date

/-!
# Days and their dates

`Date.ofDay` finds the date of a day: a date that exists, and whose day it is (`Date.ofDay_spec`).
The year is found by a guess that is off by one at most, the month by going through the lengths of
the months.
-/

namespace NetAudit.Calendar

/-! ## Years

The days of a year are those of its months, and the guess for a year is corrected by its first
day. -/

/-- A year has as many days as its months. -/
theorem total_monthLengths (year : Int) :
    (Number.total (monthLengths year) : Int) = daysBeforeYear (year + 1) - daysBeforeYear year := by
  have hleap : isLeapYear year = true ↔ year % 4 = 0 ∧ (year % 100 ≠ 0 ∨ year % 400 = 0) := by
    simp [isLeapYear]
  unfold daysBeforeYear
  by_cases h : isLeapYear year = true
  · have hyear := hleap.1 h
    simp only [monthLengths, h, Number.total, if_true]
    omega
  · have hyear := mt hleap.2 h
    simp only [monthLengths, h, Bool.false_eq_true, Number.total, if_false]
    omega

namespace Date

/-- **The year of a day** begins on that day or before it, and ends after it. -/
theorem yearOfDay_spec (n : Int) :
    daysBeforeYear (yearOfDay n) ≤ n ∧ n < daysBeforeYear (yearOfDay n + 1) := by
  -- A year has 146097 / 400 days in the mean, which leads to within a year of the right one.
  have hguess : ∀ year, year = 400 * n / 146097 →
      daysBeforeYear (year - 1) ≤ n ∧ n < daysBeforeYear (year + 1 + 1) := by
    intro year hyear
    unfold daysBeforeYear
    omega
  obtain ⟨hbefore, hafter⟩ := hguess _ rfl
  unfold yearOfDay
  generalize 400 * n / 146097 = year at hbefore hafter
  show daysBeforeYear (ite _ _ _) ≤ n ∧ n < daysBeforeYear (ite _ _ _ + 1)
  split
  · next hlt =>
    rw [Int.sub_add_cancel]
    exact ⟨hbefore, hlt⟩
  · next hle =>
    split
    · next hge => exact ⟨hge, hafter⟩
    · next hlt => exact ⟨Int.not_lt.1 hle, Int.not_le.1 hlt⟩

/-! ## Months

The lengths of the months are taken off one after the other, until the rest lies within a month. -/

/-- Going through the lengths of months finds the month of a day and the day of that month. -/
theorem ofDayOfYear_spec (month : Nat) (lengths : List Nat) {n : Nat}
    (h : n < Number.total lengths) :
    ∃ i length, lengths[i]? = some length ∧ ∃ day < length,
      ofDayOfYear month lengths n = (month + i, day + 1) ∧
        n = Number.total (lengths.take i) + day := by
  induction lengths generalizing month n with
  | nil => exact absurd h (Nat.not_lt_zero n)
  | cons length rest ih =>
      rw [ofDayOfYear]
      by_cases hlt : n < length
      · exact ⟨0, length, rfl, n, hlt, if_pos hlt, (Nat.zero_add n).symm⟩
      · rw [Number.total] at h
        obtain ⟨i, length', hi, day, hday, heq, hn⟩ :=
          ih (month + 1) (n := n - length) (by omega)
        refine ⟨i + 1, length', hi, day, hday, ?_, ?_⟩
        · rw [if_neg hlt, heq, Nat.add_right_comm, Nat.add_assoc]
        · rw [List.take_succ_cons, Number.total]
          omega

/-! ## Days

Year and month together give the date of a day. -/

/-- The day of the year of a day, counted from 0, lies in its year. -/
theorem dayOfYear_lt (n : Int) :
    (n - daysBeforeYear (yearOfDay n)).toNat < Number.total (monthLengths (yearOfDay n)) := by
  obtain ⟨hle, hlt⟩ := yearOfDay_spec n
  have htotal := total_monthLengths (yearOfDay n)
  omega

/-- **The date of a day exists, and is the date of that day.** -/
theorem ofDay_spec (day : Int) : (ofDay day).exists? = true ∧ (ofDay day).dayNumber = day := by
  obtain ⟨hle, -⟩ := yearOfDay_spec (day + epochDay)
  obtain ⟨i, length, hi, dayOfMonth, hday, heq, hn⟩ :=
    ofDayOfYear_spec 1 _ (dayOfYear_lt (day + epochDay))
  have hdate : ofDay day = ⟨yearOfDay (day + epochDay), 1 + i, dayOfMonth + 1⟩ := by
    simp only [ofDay, heq]
  have hmonth : i < 12 := (List.getElem?_eq_some_iff.1 hi).1
  rw [hdate]
  constructor
  · have hlength : (monthLengths (yearOfDay (day + epochDay))).getD i 0 = length := by
      rw [List.getD_eq_getElem?_getD, hi, Option.getD_some]
    simp only [exists?, Nat.add_sub_cancel_left, hlength, Bool.and_eq_true, decide_eq_true_eq]
    omega
  · simp only [dayNumber, Nat.add_sub_cancel_left]
    omega

end Date

end NetAudit.Calendar
