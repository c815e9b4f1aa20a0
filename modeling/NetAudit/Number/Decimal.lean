import NetAudit.Number.Binary64

/-!
# Numbers in decimal notation

What a client writes for a number: an optional sign, then digits with at most one point among them
and at least one digit, then optionally `e` or `E` with a whole number. Also `inf` and `infinity`
in any case of the letters. A written NaN is no number. Nothing may stand before or after.

The value is the double-precision number nearest to what is written.
-/

namespace NetAudit.Number

/-- The ASCII digits at the beginning of a text, and what follows them. -/
def spanDigits (cs : List Char) : List Char × List Char :=
  (cs.takeWhile Char.isDigit, cs.dropWhile Char.isDigit)

/-- The exponent after the digits of a number: none means zero. -/
def exponent? : List Char → Option Int
  | [] => some 0
  | e :: cs =>
    if e = 'e' ∨ e = 'E' then
      match cs with
      | '-' :: ds => (whole? ds).map fun n => -(n : Int)
      | '+' :: ds => (whole? ds).map fun n => (n : Int)
      | ds => (whole? ds).map fun n => (n : Int)
    else none
where
  /-- The value of one or more digits. -/
  whole? (ds : List Char) : Option Nat :=
    if ds.isEmpty || !ds.all Char.isDigit then none else some (Nat.ofDigitChars 10 ds 0)

/-- The digits before and after the point, and what follows them. -/
def mantissa (cs : List Char) : List Char × List Char × List Char :=
  let (whole, rest) := spanDigits cs
  match rest with
  | '.' :: rest =>
    let (fraction, rest) := spanDigits rest
    (whole, fraction, rest)
  | rest => (whole, [], rest)

/-- The number without a sign that a text stands for. -/
def unsigned? (negative : Bool) (cs : List Char) : Option Binary64 :=
  let lower := cs.map Char.toLower
  if lower = "inf".toList ∨ lower = "infinity".toList then some (.infinity negative)
  else
    let (whole, fraction, rest) := mantissa cs
    let digits := (whole ++ fraction).dropWhile (· == '0')
    if whole.isEmpty && fraction.isEmpty then none
    else
      (exponent? rest).map fun e =>
        .ofDecimal negative (Nat.ofDigitChars 10 digits 0) digits.length (e - fraction.length)

/-- The number that a text stands for. -/
def decimal? (cs : List Char) : Option Binary64 :=
  match cs with
  | '+' :: cs => unsigned? false cs
  | '-' :: cs => unsigned? true cs
  | cs => unsigned? false cs

end NetAudit.Number
