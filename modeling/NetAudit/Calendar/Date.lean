import NetAudit.Number.Natural

/-!
# Dates of the Gregorian calendar

Years before 1 and after 9999 are counted as the astronomers do, with a year 0. A day is numbered
by the days since 1970-01-01, and `Date.ofDay` finds the date of a number.
-/

namespace NetAudit.Calendar

/-- A year of 366 days. -/
def isLeapYear (year : Int) : Bool := year % 4 = 0 && (year % 100 ≠ 0 || year % 400 = 0)

/-- The lengths of the months from January on. -/
def monthLengths (year : Int) : List Nat :=
  [31, if isLeapYear year then 29 else 28, 31, 30, 31, 30, 31, 31, 30, 31, 30, 31]

/-- The number of days from the beginning of year 0 to the beginning of a year. -/
def daysBeforeYear (year : Int) : Int :=
  365 * year + (year + 3) / 4 - (year + 99) / 100 + (year + 399) / 400

/-- The number of days from the beginning of year 0 to 1970-01-01. -/
def epochDay : Int := 719528

/-- A year, a month from 1 to 12 and a day from 1. -/
structure Date where
  year : Int
  month : Nat
  day : Nat
deriving DecidableEq, Repr

namespace Date

/-- The calendar has this day. -/
def exists? (d : Date) : Bool :=
  1 ≤ d.month && d.month ≤ 12 && 1 ≤ d.day &&
    d.day ≤ (monthLengths d.year).getD (d.month - 1) 0

/-- The number of the day. -/
def dayNumber (d : Date) : Int :=
  daysBeforeYear d.year + Number.total ((monthLengths d.year).take (d.month - 1)) + (d.day - 1) -
    epochDay

/-- The month and the day of the month of a day of the year that counts from 0. -/
def ofDayOfYear (month : Nat) : List Nat → Nat → Nat × Nat
  | [], n => (month, n + 1)
  | length :: rest, n =>
    if n < length then (month, n + 1) else ofDayOfYear (month + 1) rest (n - length)

/-- The year of a day that counts from the beginning of year 0. The mean length of a year leads to
the year before or to the year itself. -/
def yearOfDay (n : Int) : Int :=
  let year := (400 * n) / 146097
  if n < daysBeforeYear year then year - 1
  else if daysBeforeYear (year + 1) ≤ n then year + 1
  else year

/-- The date of a day number. -/
def ofDay (day : Int) : Date :=
  let n := day + epochDay
  let year := yearOfDay n
  let (month, dayOfMonth) := ofDayOfYear 1 (monthLengths year) (n - daysBeforeYear year).toNat
  ⟨year, month, dayOfMonth⟩

end Date

end NetAudit.Calendar
