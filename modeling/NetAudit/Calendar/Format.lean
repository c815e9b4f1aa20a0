import NetAudit.Calendar.Instant

/-!
# Instants as texts

The three ways in which an instant is written: with `Z` (in documents), with `+00:00` (in reports
and logs) and with blanks (in messages). All three share the date and the time of day; a fraction
is written with three, six or nine digits, the fewest that are exact, and a leap second as second
60. A year before 0 or after 9999 has a sign.
-/

namespace NetAudit.Calendar

/-- A natural with at least `width` digits. -/
def padded (width n : Nat) : String :=
  let ds := Nat.toDigits 10 n
  String.ofList (List.replicate (width - ds.length) '0' ++ ds)

/-- A year of at least four digits, with a sign outside 0 to 9999. -/
def yearText (year : Int) : String :=
  if year < 0 then "-" ++ padded 4 year.natAbs
  else if year ≤ 9999 then padded 4 year.natAbs
  else "+" ++ padded 4 year.natAbs

/-- A date with hyphens. -/
def Date.text (d : Date) : String :=
  yearText d.year ++ "-" ++ padded 2 d.month ++ "-" ++ padded 2 d.day

/-- A date without hyphens. -/
def Date.compactText (d : Date) : String :=
  yearText d.year ++ padded 2 d.month ++ padded 2 d.day

/-- The fraction of a second, with its point. -/
def fractionText (nano : Nat) : String :=
  if nano = 0 then ""
  else if nano % 1000000 = 0 then "." ++ padded 3 (nano / 1000000)
  else if nano % 1000 = 0 then "." ++ padded 6 (nano / 1000)
  else "." ++ padded 9 nano

namespace Instant

/-- The time of day. -/
def timeText (t : Instant) : String :=
  let s := t.secondOfDay
  let second := if t.isLeap then 60 else s % 60
  padded 2 (s / 3600) ++ ":" ++ padded 2 (s / 60 % 60) ++ ":" ++ padded 2 second ++
    fractionText (t.nano % nanosPerSecond)

/-- The form of documents: `2012-03-21T00:00:00Z`. -/
def document (t : Instant) : String := t.date.text ++ "T" ++ t.timeText ++ "Z"

/-- The form of reports and logs: `2012-03-21T00:00:00+00:00`. -/
def withOffset (t : Instant) : String := t.date.text ++ "T" ++ t.timeText ++ "+00:00"

/-- The form of messages: `2012-03-21 00:00:00 UTC`. -/
def message (t : Instant) : String := t.date.text ++ " " ++ t.timeText ++ " UTC"

end Instant

end NetAudit.Calendar
