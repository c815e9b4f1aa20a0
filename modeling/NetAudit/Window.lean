import NetAudit.Calendar.Format
import NetAudit.Calendar.Rfc3339
import NetAudit.Ending
import NetAudit.Text.Escaped

/-!
# Windows of time

A run covers the instants from the start of its window up to, but without, its end. A caller names
the bounds or leaves them out; what is left out is taken from the day before the present one. That
day is looked up before the bounds are, and to look it up panics if the calendar does not have it.
-/

namespace NetAudit

open Calendar (Instant TimestampFault)

/-- The instants from `start` up to, but without, `stop`. -/
structure Window where
  start : Instant
  stop : Instant
deriving DecidableEq

/-- Why there is no such window. -/
inductive WindowError where
  /-- A bound is no timestamp. -/
  | badTimestamp (value : String) (fault : TimestampFault)
  /-- The start does not come before the end. -/
  | notBefore (start stop : Instant)
  /-- A bound would leave the calendar when moved by a number of days. -/
  | beyondCalendar (days : Int)
deriving DecidableEq

/-- The wording of an error. -/
def WindowError.message : WindowError → String
  | badTimestamp value fault => "invalid timestamp " ++ Text.quoted value ++ ": " ++ fault.message
  | notBefore start stop =>
    "invalid run window: start " ++ start.message ++ " is not before end " ++ stop.message
  | beyondCalendar days => "run window shifted by " ++ toString days ++ " days is out of range"

namespace Window

/-- The instant lies in the window. -/
def contains (w : Window) (t : Instant) : Bool := w.start ≤ t && t < w.stop

/-- The window between two instants, the first of which has to come before the second. -/
def between? (start stop : Instant) : Except WindowError Window :=
  if start < stop then .ok ⟨start, stop⟩ else .error (.notBefore start stop)

/-- The day before the present one. A subtraction of days that leaves the calendar panics. -/
def yesterday (now : Instant) : Ending Window :=
  match now.midnight.addDays? (-1) with
  | some start => .returned ⟨start, now.midnight⟩
  | none => .panicked

/-- The instant that a caller names as a bound. -/
def bound? (value : String) : Except WindowError Instant :=
  match Instant.ofTimestamp? value with
  | .ok t => .ok t
  | .error fault => .error (.badTimestamp value fault)

/-- The instant that a caller names as a bound, or another if there is no text. -/
def boundOr (value : Option String) (otherwise : Instant) : Except WindowError Instant :=
  match value with
  | none => .ok otherwise
  | some value => if Text.isBlankText value then .ok otherwise else bound? value

/-- The window with the bounds that a caller names; where one is left out or blank, that of the day
before the present one stands in. -/
def ofBounds? (start stop : Option String) (now : Instant) :
    Ending (Except WindowError Window) := do
  let day ← yesterday now
  return do between? (← boundOr start day.start) (← boundOr stop day.stop)

/-- The window moved by whole days. -/
def addDays? (w : Window) (days : Int) : Except WindowError Window :=
  match w.start.addDays? days, w.stop.addDays? days with
  | some start, some stop => .ok ⟨start, stop⟩
  | _, _ => .error (.beyondCalendar days)

end Window

end NetAudit
