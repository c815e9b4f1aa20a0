import NetAudit.Number.Natural
import NetAudit.Number.Binary64
import NetAudit.Number.Shortest

/-!
# JSON documents as they are read

A text that is meant to be JSON becomes a `Document`: a tree that holds everything up to the place
where the text stops being JSON, if there is one. So whoever reads the tree from left to right
meets the first problem first, be it a fault of the text or a value of the wrong kind.

The words that describe such a fault depend on whether the value there is wanted or passed over,
so a `Stop` holds both. A numeral and a string are kept as written, because some of what is wrong
with them matters only if they are wanted.
-/

namespace NetAudit.Json

/-- Where a text stops being JSON. -/
inductive Fault where
  | endInArray
  | endInObject
  | endInString
  | endInValue
  | expectedColon
  | expectedCommaOrBracket
  | expectedCommaOrBrace
  | expectedWord
  | expectedValue
  | expectedName
  | badEscape
  | badNumber
  | numberOutOfRange
  | controlCharacter
  | loneSurrogate
  | unfinishedSurrogate
  | commaAtEnd
  | textAtEnd
  | tooDeep
deriving DecidableEq, Repr

namespace Fault

/-- The wording of a fault. -/
def message : Fault → String
  | endInArray => "EOF while parsing a list"
  | endInObject => "EOF while parsing an object"
  | endInString => "EOF while parsing a string"
  | endInValue => "EOF while parsing a value"
  | expectedColon => "expected `:`"
  | expectedCommaOrBracket => "expected `,` or `]`"
  | expectedCommaOrBrace => "expected `,` or `\x7d`"
  | expectedWord => "expected ident"
  | expectedValue => "expected value"
  | expectedName => "key must be a string"
  | badEscape => "invalid escape"
  | badNumber => "invalid number"
  | numberOutOfRange => "number out of range"
  | controlCharacter => "control character (\\u0000-\\u001F) found while parsing a string"
  | loneSurrogate => "lone leading surrogate in hex escape"
  | unfinishedSurrogate => "unexpected end of hex escape"
  | commaAtEnd => "trailing comma"
  | textAtEnd => "trailing characters"
  | tooDeep => "recursion limit exceeded"

/-- The text ended where it could not. -/
def isEnd : Fault → Bool
  | endInArray | endInObject | endInString | endInValue => true
  | _ => false

end Fault

/-- Where the text breaks off: the fault to name if the value there is wanted, and the one to name
if it is passed over. -/
structure Stop where
  wanted : Fault
  skipped : Fault
deriving DecidableEq, Repr

/-- A stop that is named alike in both cases. -/
def Stop.same (fault : Fault) : Stop := ⟨fault, fault⟩

/-! ### Numerals -/

/-- A number as written: the digits before the point, those after it, and the exponent. -/
structure Numeral where
  negative : Bool
  whole : List Char
  fraction : Option (List Char)
  exponent : Option Int
deriving DecidableEq, Repr

/-- The value of a numeral: a whole number of 64 bits, or a double-precision number. -/
inductive Quantity where
  | whole (n : Int)
  | float (x : Number.Binary64)
deriving DecidableEq

namespace Numeral

open Number

/-- Digits taken into a significand for as long as it stays below `countBound`: the significand and
the number of digits left over. -/
def accumulate (significand : Nat) : List Char → Nat × Nat
  | [] => (significand, 0)
  | d :: ds =>
    let next := 10 * significand + (d.toNat - '0'.toNat)
    if next < countBound then accumulate next ds else (significand, ds.length + 1)

/-- A place among the doubles times a power of ten up to `10 ^ 308`, rounded to a double before and
after; nothing if that is infinite. -/
def timesPower (rank : Nat) (exponent : Int) : Option Nat :=
  let (m, q) := significandAndExponent rank
  let (p, r) := significandAndExponent (rankOfRatio (Nat.pow 10 exponent.natAbs) 1)
  let (num, den) :=
    if 0 ≤ exponent then scaled 2 (m * p) 1 (q + r) else scaled 2 m p (q - r)
  let result := rankOfRatio num den
  if 0 ≤ exponent ∧ result = infinityRank then none else some result

/-- A significand times a power of ten: powers beyond `10 ^ 308` are divided by in several steps,
three of which leave nothing of any significand. -/
def scaledRank (steps : Nat) (rank : Nat) (exponent : Int) : Option Nat :=
  if exponent.natAbs ≤ 308 then timesPower rank exponent
  else if rank = 0 then some 0
  else if 0 < exponent then none
  else
    match steps with
    | 0 => some 0
    | n + 1 => (timesPower rank (-308)).bind fun r => scaledRank n r (exponent + 308)

/-- The double that a significand and an exponent stand for. The significand and the power of ten
are rounded before they are multiplied. -/
def float? (negative : Bool) (significand : Nat) (exponent : Int) : Except Fault Binary64 :=
  match scaledRank 3 (rankOfRatio significand 1) exponent with
  | some rank => .ok (.atRank negative rank)
  | none => .error .numberOutOfRange

/-- The value of a numeral. A number without point and exponent is whole if it fits into 64 bits,
and minus zero is not whole. Digits beyond what a significand of 64 bits holds are zeros before
the point and nothing after it. -/
def value (n : Numeral) : Except Fault Quantity :=
  let (significand, dropped) := accumulate 0 n.whole
  if n.fraction.isNone ∧ n.exponent.isNone ∧ dropped = 0 ∧
      (n.negative → 0 < significand ∧ significand ≤ signBit) then
    .ok (.whole (if n.negative then -(significand : Int) else significand))
  else do
    let digits := n.fraction.getD []
    let (significand, unread) := accumulate significand digits
    let places : Int := dropped - (digits.length - unread : Nat)
    let exponent := n.exponent.getD 0
    if exponent.natAbs < 0x80000000 then
      return .float (← float? n.negative significand (places + exponent))
    else if significand = 0 ∨ exponent < 0 then return .float (.atRank n.negative 0)
    else throw .numberOutOfRange

end Numeral

/-! ### Documents -/

/-- The text of a string, or the fault that shows when it is wanted. -/
abbrev Literal := Except Fault String

/-- A JSON text as it is read, up to where it stops being JSON. -/
inductive Document where
  | null
  | bool (b : Bool)
  | number (n : Numeral)
  | string (s : Literal)
  /-- An array, up to its end or to where it breaks off. -/
  | array (items : List Document) (stop : Option Stop)
  /-- An object, up to its end or to where it breaks off. -/
  | object (fields : List (Literal × Document)) (stop : Option Stop)
  /-- There is no value, or a string that breaks off. -/
  | broken (stop : Stop)
  /-- Something that is no value and begins like neither a string, an array nor an object. -/
  | garbled (stop : Stop)

/-- What stands in a document in place of what was wanted. -/
inductive Found where
  | null
  | bool (b : Bool)
  | whole (n : Int)
  | float (x : Number.Binary64)
  | string (s : String)
  | array
  | object

/-- What stands here, if it can be told. -/
def Document.found : Document → Except Fault Found
  | .null => .ok .null
  | .bool b => .ok (.bool b)
  | .number n =>
    match n.value with
    | .ok (.whole k) => .ok (.whole k)
    | .ok (.float x) => .ok (.float x)
    | .error fault => .error fault
  | .string s => s.map .string
  | .array _ _ => .ok .array
  | .object _ _ => .ok .object
  | .broken stop | .garbled stop => .error stop.wanted

/-- A document and what follows it. -/
structure Reading where
  document : Document
  /-- There is text after the document. -/
  trailing : Bool

end NetAudit.Json
