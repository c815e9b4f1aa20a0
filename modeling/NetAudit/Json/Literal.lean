import NetAudit.Json.Document
import NetAudit.Number.Natural

/-!
# JSON strings as they are read

A string is read in two passes. The first finds its end and turns its escapes into units; all it
refuses are unknown escapes, control characters and a missing end. The second joins the units that
are halves of one character, and refuses halves without a partner. A string that nobody wants needs
the first pass only.
-/

namespace NetAudit.Json

/-- A character as written, or the sixteen bits of an escape `\u`. -/
inductive StringUnit where
  | char (c : Char)
  | code (n : Nat)
deriving DecidableEq, Repr

/-- How the first pass over a string ends. -/
inductive StringEnd where
  | closed
  | endOfText
  | control
  | badEscape
  | badCode
deriving DecidableEq, Repr

/-- What the first pass finds: units, how they end, and the text that follows. -/
structure ScannedString where
  units : List StringUnit
  ending : StringEnd
  rest : List Char

/-- The string that begins with one more unit. -/
def ScannedString.cons (u : StringUnit) (s : ScannedString) : ScannedString :=
  { s with units := u :: s.units }

/-- The character that a one-letter escape stands for. -/
def simpleEscape? : Char → Option Char
  | '"' => some '"'
  | '\\' => some '\\'
  | '/' => some '/'
  | 'b' => some '\x08'
  | 'f' => some '\x0c'
  | 'n' => some '\n'
  | 'r' => some '\r'
  | 't' => some '\t'
  | _ => none

/-- The first pass, from behind the opening quote. -/
def scanString : List Char → ScannedString
  | [] => ⟨[], .endOfText, []⟩
  | '"' :: cs => ⟨[], .closed, cs⟩
  | '\\' :: 'u' :: a :: b :: c :: d :: cs =>
    match Number.hexDigits? [a, b, c, d] with
    | some n => (scanString cs).cons (.code n)
    | none => ⟨[], .badCode, []⟩
  | '\\' :: 'u' :: cs =>
    ⟨[], if (String.ofList cs).utf8ByteSize < 4 then .endOfText else .badCode, []⟩
  | ['\\'] => ⟨[], .endOfText, []⟩
  | '\\' :: e :: cs =>
    match simpleEscape? e with
    | some c => (scanString cs).cons (.char c)
    | none => ⟨[], .badEscape, []⟩
  | c :: cs => if c.toNat < 0x20 then ⟨[], .control, []⟩ else (scanString cs).cons (.char c)

/-- The units of a UTF-16 pair: the first. -/
def isHighSurrogate (n : Nat) : Bool := 0xD800 ≤ n && n ≤ 0xDBFF

/-- The units of a UTF-16 pair: the second. -/
def isLowSurrogate (n : Nat) : Bool := 0xDC00 ≤ n && n ≤ 0xDFFF

/-- The first half of a character is waiting for the second at the end of the units. -/
def endsInHalf (units : List StringUnit) : Bool :=
  match units.getLast? with
  | some (.code n) => isHighSurrogate n
  | _ => false

/-- The second pass: the characters that units stand for. A half at the end is left to the one who
knows how the units end. -/
def joinUnits : List StringUnit → Except Fault (List Char)
  | [] => .ok []
  | .char c :: us => (joinUnits us).map (c :: ·)
  | .code n :: us =>
    if isLowSurrogate n then .error .loneSurrogate
    else if isHighSurrogate n then
      match us with
      | [] => .ok []
      | .char _ :: _ => .error .unfinishedSurrogate
      | .code m :: us =>
        if isLowSurrogate m then
          (joinUnits us).map
            (Char.ofNat ((n - 0xD800) * 0x400 + (m - 0xDC00) + 0x10000) :: ·)
        else .error .loneSurrogate
    else (joinUnits us).map (Char.ofNat n :: ·)

/-- The text of a string whose end was found. -/
def literalOfUnits (units : List StringUnit) : Literal :=
  match joinUnits units with
  | .error fault => .error fault
  | .ok cs => if endsInHalf units then .error .unfinishedSurrogate else .ok (String.ofList cs)

/-- Where a string breaks off whose end was not found: the fault of the first pass if it is passed
over; if it is wanted, a fault of the second pass comes first. -/
def stopOfUnits (units : List StringUnit) (ending : StringEnd) : Stop :=
  let skipped : Fault := match ending with
    | .closed | .endOfText => .endInString
    | .control => .controlCharacter
    | .badEscape | .badCode => .badEscape
  match joinUnits units with
  | .error fault => ⟨fault, skipped⟩
  | .ok _ =>
    if endsInHalf units && (ending == .control || ending == .badEscape) then
      ⟨.unfinishedSurrogate, skipped⟩
    else .same skipped

/-- What follows a string is no longer than the text it was read from. -/
theorem length_rest_scanString_le (cs : List Char) : (scanString cs).rest.length ≤ cs.length := by
  fun_induction scanString cs <;> simp_all [ScannedString.cons] <;> omega

end NetAudit.Json
