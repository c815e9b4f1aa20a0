import NetAudit.Calendar.Instant
import NetAudit.Text.Blank

/-!
# Reading the parts of a timestamp

What the two grammars for timestamps share: the reasons for which a text is no timestamp, the
steps that read its parts from left to right, and the instant that a date, a time of day and an
offset name.
-/

namespace NetAudit.Calendar

/-- Why a text is no timestamp. -/
inductive TimestampFault where
  /-- The text ends too early. -/
  | premature
  /-- A character that cannot stand where it stands. -/
  | unexpected
  /-- A part, or the whole, beyond what exists. -/
  | outOfRange
  /-- An instant that the calendar does not reach, though it reaches the local time. -/
  | unreachable
  /-- Text after the end of the timestamp. -/
  | trailing
deriving DecidableEq, Repr

/-- The wording of a fault. -/
def TimestampFault.message : TimestampFault → String
  | .premature => "premature end of input"
  | .unexpected => "input contains invalid characters"
  | .outOfRange => "input is out of range"
  | .unreachable => "no possible date and time matching input"
  | .trailing => "trailing input"

/-- A step that reads from the front of a text. -/
abbrev Scan := StateT (List Char) (Except TimestampFault)

namespace Scan

/-- Go on only if the condition holds. -/
def require (fault : TimestampFault) (condition : Bool) : Scan Unit :=
  if condition then pure () else throw fault

/-- The next character, which has to satisfy `accept`. -/
def char (accept : Char → Bool) : Scan Char := do
  match ← get with
  | [] => throw .premature
  | c :: cs =>
    if accept c then
      set cs
      return c
    else throw .unexpected

/-- The value of the next character, a digit. -/
def digit : Scan Nat := return (← char Char.isDigit).toNat - '0'.toNat

/-- The value of the next `n` characters, all digits. -/
def digits : Nat → Scan Nat
  | 0 => return 0
  | n + 1 => do
    let high ← digit
    let low ← digits n
    return high * Nat.pow 10 n + low

/-- Pass over white space. -/
def blanks : Scan Unit := modify Text.trimLeft

/-- The digits of the fraction after its point; the first nine count. -/
def fraction : Scan Nat := do
  let cs ← get
  let ds := cs.takeWhile Char.isDigit
  match cs with
  | [] => throw .premature
  | _ :: _ =>
    require .unexpected (!ds.isEmpty)
    set (cs.dropWhile Char.isDigit)
    return Nat.ofDigitChars 10 (ds.take 9) 0 * Nat.pow 10 (9 - ds.length)

/-- A fraction if a point comes next, else zero. -/
def optionalFraction : Scan Nat := do
  match ← get with
  | '.' :: cs =>
    set cs
    fraction
  | _ => return 0

/-- The next two digits of an offset. Fewer than two bytes of text are too few. -/
def offsetDigits : Scan (Nat × Nat) := do
  match ← get with
  | [] => throw .premature
  | [c] => throw (if c.utf8Size < 2 then .premature else .unexpected)
  | a :: b :: cs =>
    require .unexpected (a.isDigit && b.isDigit)
    set cs
    return (a.toNat - '0'.toNat, b.toNat - '0'.toNat)

/-- An offset from UTC in seconds: `Z`, or a sign, hours and minutes with what `separator` reads
between them. The minus sign of mathematics counts as a hyphen. -/
def offset (separator : Scan Unit) : Scan Int := do
  match ← get with
  | 'Z' :: cs | 'z' :: cs =>
    set cs
    return 0
  | _ =>
    let sign ← char fun c => c == '+' || c == '-' || c == '\u2212'
    let (h₁, h₀) ← offsetDigits
    separator
    let (m₁, m₀) ← offsetDigits
    require .outOfRange (m₁ < 6)
    let seconds : Int := (h₁ * 10 + h₀) * 3600 + (m₁ * 10 + m₀) * 60
    return if sign == '+' then seconds else -seconds

/-- The instant of a local date and time of day with an offset. -/
def instant (date : Date) (hour minute second nano : Nat) (offset : Int) : Scan Instant := do
  let leap := second == 60
  let secondOfDay : Int := hour * 3600 + minute * 60 + (if leap then 59 else second : Nat)
  let nano := if leap then nano + nanosPerSecond else nano
  require .outOfRange (offset.natAbs < 86400)
  match Instant.ofParts? (date.dayNumber * 86400 + secondOfDay - offset) nano with
  | some t => return t
  | none => throw .unreachable

/-- What the steps read from a whole text. -/
def run? (scan : Scan α) (s : String) : Except TimestampFault α := (scan s.toList).map (·.1)

end Scan

end NetAudit.Calendar
