import NetAudit.Calendar.Date

/-!
# Instants

An instant of UTC to the nanosecond, leap seconds included. A leap second is kept as the second
before it with a billion or more nanoseconds, so it comes after all of that second and before the
minute that follows; it ends some minute, but which minutes have one is not checked.

The calendar reaches from the year -262143 to the year 262142, and every instant lies within it.
-/

namespace NetAudit.Calendar

/-- The first second of the calendar, counted from 1970. -/
def firstSecond : Int := -8334601228800

/-- The last second of the calendar, counted from 1970. -/
def lastSecond : Int := 8210266876799

example : firstSecond = (Date.mk (-262143) 1 1).dayNumber * 86400 ∧
    lastSecond = ((Date.mk 262142 12 31).dayNumber + 1) * 86400 - 1 := by decide

/-- The nanoseconds of a second. -/
def nanosPerSecond : Nat := 1000000000

/-- An instant of UTC: a second counted from 1970, and nanoseconds from its beginning. -/
structure Instant where
  second : Int
  nano : Nat
  first_le : firstSecond ≤ second
  le_last : second ≤ lastSecond
  nano_lt : nano < 2 * nanosPerSecond
  leap_ends_minute : nanosPerSecond ≤ nano → second % 60 = 59
deriving DecidableEq

namespace Instant

/-- The instant with these parts, if there is one. -/
def ofParts? (second : Int) (nano : Nat) : Option Instant :=
  if h : (firstSecond ≤ second ∧ second ≤ lastSecond) ∧
      nano < 2 * nanosPerSecond ∧ (nanosPerSecond ≤ nano → second % 60 = 59) then
    some ⟨second, nano, h.1.1, h.1.2, h.2.1, h.2.2⟩
  else none

/-- The beginning of 1970. -/
def epoch : Instant where
  second := 0
  nano := 0
  first_le := by decide
  le_last := by decide
  nano_lt := by decide
  leap_ends_minute h := absurd h (by decide)

/-- The instant lies in a leap second. -/
def isLeap (t : Instant) : Bool := nanosPerSecond ≤ t.nano

/-! ### Order -/

instance : Ord Instant := ⟨compareLex (compareOn second) (compareOn nano)⟩

instance : Std.TransOrd Instant :=
  inferInstanceAs (Std.TransCmp (compareLex (compareOn second) (compareOn nano)))

theorem ext {s t : Instant} (h₁ : s.second = t.second) (h₂ : s.nano = t.nano) : s = t := by
  cases s; cases t; cases h₁; cases h₂; rfl

theorem compare_def (s t : Instant) :
    compare s t = (compare s.second t.second).then (compare s.nano t.nano) := rfl

instance : Std.LawfulEqOrd Instant where
  compare_self := by simp
  eq_of_compare {s t} h := by
    rw [compare_def, Ordering.then_eq_eq] at h
    exact ext (Std.LawfulEqCmp.eq_of_compare h.1) (Std.LawfulEqCmp.eq_of_compare h.2)

/-- Earlier second first, and within a second fewer nanoseconds first. -/
instance : LT Instant := ⟨fun s t => s.second < t.second ∨ s.second = t.second ∧ s.nano < t.nano⟩

instance : LE Instant := ⟨fun s t => ¬ t < s⟩

instance (s t : Instant) : Decidable (s < t) :=
  inferInstanceAs (Decidable (s.second < t.second ∨ s.second = t.second ∧ s.nano < t.nano))

instance (s t : Instant) : Decidable (s ≤ t) := inferInstanceAs (Decidable (¬ t < s))

theorem lt_def {s t : Instant} :
    s < t ↔ s.second < t.second ∨ s.second = t.second ∧ s.nano < t.nano := Iff.rfl

theorem le_def {s t : Instant} : s ≤ t ↔ ¬ t < s := Iff.rfl

/-- The order of `compare` is the order of `<`. -/
theorem compare_eq_lt_iff {s t : Instant} : compare s t = .lt ↔ s < t := by
  rw [compare_def, Ordering.then_eq_lt, lt_def, Std.compare_eq_lt, Std.compare_eq_lt,
    Std.compare_eq_iff_eq]

/-! ### Days -/

/-- The beginning of the day of an instant. -/
def midnight (t : Instant) : Instant where
  second := t.second - t.second % 86400
  nano := 0
  first_le := by
    have := t.first_le
    simp only [firstSecond] at *
    omega
  le_last := by
    have := t.le_last
    omega
  nano_lt := by decide
  leap_ends_minute h := absurd h (by decide)

/-- The same time of day a number of days later, if the calendar reaches so far. A leap second
moves only by no days at all: moved to a later day it becomes the second before it, and moved to an
earlier day the second after it. -/
def addDays? (t : Instant) (days : Int) : Option Instant :=
  if days = 0 then some t
  else if t.isLeap then
    ofParts? (t.second + days * 86400 + if days < 0 then 1 else 0) (t.nano - nanosPerSecond)
  else ofParts? (t.second + days * 86400) t.nano

/-- Milliseconds since 1970, rounded down. A leap second counts as the second it is kept with, with
its nanoseconds, so a thousand milliseconds more. -/
def millis (t : Instant) : Int := t.second * 1000 + (t.nano / 1000000 : Nat)

/-- The date of an instant. -/
def date (t : Instant) : Date := .ofDay (t.second / 86400)

/-- The second of the day of an instant. -/
def secondOfDay (t : Instant) : Nat := (t.second % 86400).toNat

end Instant

end NetAudit.Calendar
