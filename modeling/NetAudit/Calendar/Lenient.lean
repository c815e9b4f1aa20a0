import NetAudit.Calendar.Scan

/-!
# Timestamps of documents

The looser grammar, for the times in JSON documents. Parts may have fewer digits, white space may
stand before each part and mark, a year may have a sign and then any number of digits, and the
offset may be the word `UTC`. A part is checked when it is read; whether the date exists and the
calendar reaches so far, only when nothing is left of the text.
-/

namespace NetAudit.Calendar

namespace Scan

/-- The value of at least one and, if there is a limit, at most `limit` digits. -/
def number (limit : Option Nat) : Scan Nat := do
  let cs ← get
  let all := cs.takeWhile Char.isDigit
  let ds := match limit with
    | some n => all.take n
    | none => all
  match cs with
  | [] => throw .premature
  | _ :: _ =>
    require .unexpected (!ds.isEmpty)
    set (cs.drop ds.length)
    return Nat.ofDigitChars 10 ds 0

/-- A year: up to four digits, or a sign and any number of digits, within 32 bits. -/
def year : Scan Int := do
  blanks
  let value : Int ← match ← get with
    | '-' :: cs => do set cs; pure (-(← number none : Nat))
    | '+' :: cs => do set cs; pure (← number none : Nat)
    | _ => do pure (← number (some 4) : Nat)
  require .outOfRange (-0x80000000 ≤ value && value < 0x80000000)
  return value

/-- A part of up to two digits within bounds. -/
def part (low high : Nat) : Scan Nat := do
  blanks
  let value ← number (some 2)
  require .outOfRange (low ≤ value && value ≤ high)
  return value

/-- A mark between parts, perhaps after white space. -/
def mark (c : Char) : Scan Unit := do
  blanks
  let _ ← char (· == c)

/-- The word `UTC` in any case, or an offset with any colons and blanks, or none, in it. -/
def zone : Scan Int := do
  let cs ← get
  if (cs.take 3).map Char.toUpper == ['U', 'T', 'C'] then
    set (cs.drop 3)
    return 0
  else offset (modify (·.dropWhile fun c => c == ':' || Text.isBlank c))

/-- The steps that read a timestamp. -/
def lenientTimestamp : Scan Instant := do
  let year ← year
  mark '-'
  let month ← part 1 12
  mark '-'
  let day ← part 1 31
  let _ ← char fun c => c == 'T' || c == 't' || c == ' '
  let hour ← part 0 23
  mark ':'
  let minute ← part 0 59
  mark ':'
  let second ← part 0 60
  let nano ← optionalFraction
  blanks
  let offset ← zone
  blanks
  require .trailing (← get).isEmpty
  let date : Date := ⟨year, month, day⟩
  require .outOfRange (date.exists? && -262143 ≤ year && year ≤ 262142)
  instant date hour minute second nano offset

end Scan

/-- The instant that a text in a document names. -/
def Instant.ofDocument? (s : String) : Except TimestampFault Instant :=
  Scan.lenientTimestamp.run? s

end NetAudit.Calendar
