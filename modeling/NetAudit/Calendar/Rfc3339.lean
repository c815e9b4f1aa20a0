import NetAudit.Calendar.Scan

/-!
# Timestamps of requests

The strict grammar, for the bounds of a run that a caller writes: `YYYY-MM-DD`, then `T` or one
space, `HH:MM:SS`, an optional fraction and an offset, with white space only around the whole.
-/

namespace NetAudit.Calendar

/-- The steps that read a timestamp. A date that does not exist is refused before what follows it
is looked at, and a time of day after its fraction. -/
def Scan.timestamp : Scan Instant := do
  let year ← digits 4
  let _ ← char (· == '-')
  let month ← digits 2
  let _ ← char (· == '-')
  let day ← digits 2
  let date : Date := ⟨year, month, day⟩
  require .outOfRange date.exists?
  let _ ← char fun c => c == 'T' || c == 't' || c == ' '
  let hour ← digits 2
  let _ ← char (· == ':')
  let minute ← digits 2
  let _ ← char (· == ':')
  let second ← digits 2
  let nano ← optionalFraction
  require .outOfRange (hour ≤ 23 && minute ≤ 59 && second ≤ 60)
  let offset ← offset (discard (char (· == ':')))
  require .trailing (← get).isEmpty
  instant date hour minute second nano offset

/-- The instant that a text names. Fewer than nineteen bytes are too few. -/
def Instant.ofTimestamp? (s : String) : Except TimestampFault Instant :=
  let text := String.ofList (Text.trim s.toList)
  if text.utf8ByteSize < 19 then .error .premature else Scan.timestamp.run? text

end NetAudit.Calendar
