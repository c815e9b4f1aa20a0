import NetAudit.Json.Reader
import NetAudit.Json.Value
import NetAudit.Calendar.Format
import NetAudit.Calendar.Lenient
import NetAudit.OrderedMap
import NetAudit.Text.Escaped
import NetAudit.Uuid

/-!
# Values in documents

How a value of the program is written into a document and found in one: a `Codec` is the two
functions together. Decoding reads the document from left to right and names the first problem.

`Document.ofJson` is the document that a written value becomes.
-/

namespace NetAudit.Json

/-! ### Problems -/

/-- How a problem names what it found. -/
def Found.text : Found → String
  | .null => "null"
  | .bool b => "boolean `" ++ toString b ++ "`"
  | .whole n => "integer `" ++ toString n ++ "`"
  | .float x => "floating point `" ++ x.decimal ++ "`"
  | .string s => "string " ++ Text.quoted s
  | .array => "sequence"
  | .object => "map"

/-- Why a JSON value is not the value that was wanted. -/
inductive Mismatch where
  | wrongType (found : Found) (wanted : String)
  | wrongValue (found : Found) (wanted : String)
  | missingField (name : String)
  | duplicateField (name : String)
  | wrongLength (n : Nat) (wanted : String)
  | unknownVariant (name : String) (known : List String)
  | timestamp (fault : Calendar.TimestampFault)
  | uuid (fault : UuidFault)

/-- Names in backquotes, as a choice. -/
def choiceText (names : List String) : String :=
  let quoted := names.map fun n => "`" ++ n ++ "`"
  match quoted with
  | [a] => a
  | [a, b] => a ++ " or " ++ b
  | names => "one of " ++ ", ".intercalate names

/-- The wording of a mismatch. -/
def Mismatch.message : Mismatch → String
  | wrongType found wanted => "invalid type: " ++ found.text ++ ", expected " ++ wanted
  | wrongValue found wanted => "invalid value: " ++ found.text ++ ", expected " ++ wanted
  | missingField name => "missing field `" ++ name ++ "`"
  | duplicateField name => "duplicate field `" ++ name ++ "`"
  | wrongLength n wanted => "invalid length " ++ toString n ++ ", expected " ++ wanted
  | unknownVariant name known =>
    "unknown variant `" ++ name ++ "`, expected " ++ choiceText known
  | timestamp fault => fault.message
  | uuid fault => "UUID parsing failed: " ++ fault.message

/-- Why a text does not hold the value that was wanted: it is no JSON, or another value, or an array
with more items than there are to be found. -/
inductive Problem where
  | text (fault : Fault)
  | data (mismatch : Mismatch)
  | surplus (items wanted : Nat)

namespace Problem

/-- The fault of the text, if it is one. Items beyond the last one that is wanted are text after
the end. -/
def fault? : Problem → Option Fault
  | text fault => some fault
  | data _ => none
  | surplus _ _ => some .textAtEnd

/-- The wording of a problem. -/
def message : Problem → String
  | text fault => fault.message
  | data mismatch => mismatch.message
  | surplus _ _ => Fault.textAtEnd.message

/-- A problem with a value that was kept for later. An array with too many items was sound when it
was kept, so it is now of the wrong length. -/
def ofKept : Problem → Problem
  | surplus items wanted =>
    .data (.wrongLength items
      (toString wanted ++ if wanted = 1 then " element in sequence" else " elements in sequence"))
  | p => p

end Problem

/-- What decoding gives. -/
abbrev Decoded (α : Type) := Except Problem α

/-- A fault of the text is a problem. -/
def Decoded.textual (x : Except Fault α) : Decoded α := x.mapError .text

/-- The text of a wanted string. -/
def Literal.decode (s : Literal) : Decoded String := .textual s

/-- An array or object is complete, or it breaks off while its content is wanted. -/
def endWanted : Option Stop → Decoded Unit
  | none => .ok ()
  | some stop => .error (.text stop.wanted)

namespace Document

/-- Something else was wanted than what stands here. -/
def mismatch (d : Document) (wanted : String) : Decoded α := do
  throw (.data (.wrongType (← .textual d.found) wanted))

mutual

/-- Pass over a value that nobody wants: only where it breaks off matters. -/
def skip : Document → Decoded Unit
  | .array items stop => skipItems stop items
  | .object fields stop => skipFields stop fields
  | .broken stop | .garbled stop => .error (.text stop.skipped)
  | _ => .ok ()

/-- Pass over the items of an array, to its end or to where it breaks off. -/
def skipItems (stop : Option Stop) : List Document → Decoded Unit
  | [] => match stop with
    | none => .ok ()
    | some stop => .error (.text stop.skipped)
  | d :: ds => do skip d; skipItems stop ds

/-- Pass over the fields of an object, to its end or to where it breaks off. -/
def skipFields (stop : Option Stop) : List (Literal × Document) → Decoded Unit
  | [] => match stop with
    | none => .ok ()
    | some stop => .error (.text stop.skipped)
  | (_, d) :: fs => do skip d; skipFields stop fs

end

mutual

/-- Look through a value that is kept for later: all of it has to be sound, and arrays and objects
may stand in it one less than `depth` deep. -/
def survey (depth : Nat) : Document → Decoded Unit
  | .array items stop =>
    if depth ≤ 1 then .error (.text .tooDeep) else surveyItems (depth - 1) stop items
  | .object fields stop =>
    if depth ≤ 1 then .error (.text .tooDeep) else surveyFields (depth - 1) stop fields
  | d => do discard (.textual d.found)

/-- Look through the items of an array. -/
def surveyItems (depth : Nat) (stop : Option Stop) : List Document → Decoded Unit
  | [] => endWanted stop
  | d :: ds => do survey depth d; surveyItems depth stop ds

/-- Look through the fields of an object. -/
def surveyFields (depth : Nat) (stop : Option Stop) : List (Literal × Document) → Decoded Unit
  | [] => endWanted stop
  | (name, d) :: fs => do
    discard name.decode
    survey depth d
    surveyFields depth stop fs

end

/-- How deep arrays and objects may stand in a value that is kept for later in the outermost
object. -/
def surveyDepth : Nat := 127

mutual

/-- The document that a written value becomes. -/
def ofJson : Json → Document
  | .null => .null
  | .bool b => .bool b
  | .number n => .number ⟨n < 0, Nat.toDigits 10 n.natAbs, none, none⟩
  | .string s => .string (.ok s)
  | .array items => .array (ofItems items) none
  | .object fields => .object (ofFields fields) none

/-- The items that written items become. -/
def ofItems : List Json → List Document
  | [] => []
  | j :: js => ofJson j :: ofItems js

/-- The fields that written fields become. -/
def ofFields : List (String × Json) → List (Literal × Document)
  | [] => []
  | (k, j) :: fs => (.ok k, ofJson j) :: ofFields fs

end

end Document

/-! ### Codecs -/

/-- How a value is written into a document and found in one. -/
structure Codec (α : Type) where
  encode : α → Json
  decode : Document → Decoded α

namespace Codec

/-- The value that a whole text holds. -/
def read (c : Codec α) (s : String) : Decoded α := do
  let r := Json.read s
  let a ← c.decode r.document
  if r.trailing then throw (.text .textAtEnd) else return a

/-- A codec for another form of the same values. -/
def map (c : Codec α) (f : α → β) (g : β → α) : Codec β where
  encode b := c.encode (g b)
  decode d := (c.decode d).map f

/-- A string. -/
def string : Codec String where
  encode := .string
  decode
    | .string s => s.decode
    | d => d.mismatch "a string"

/-- A truth value. -/
def bool : Codec Bool where
  encode := .bool
  decode
    | .bool b => .ok b
    | d => d.mismatch "a boolean"

/-- A whole number from `low` up to but without `high`. -/
def integer (wanted : String) (low high : Int) : Codec Int where
  encode := .number
  decode
    | .number n =>
      match n.value with
      | .ok (.whole k) =>
        if low ≤ k ∧ k < high then .ok k else .error (.data (.wrongValue (.whole k) wanted))
      | _ => (Document.number n).mismatch wanted
    | d => d.mismatch wanted

/-- A natural number below `bound`. -/
def natural (wanted : String) (bound : Nat) : Codec Nat :=
  (integer wanted 0 bound).map Int.toNat Int.ofNat

/-- A number of things, below `2 ^ 64`. -/
def count : Codec Nat := natural "u64" Number.countBound

/-- A size or limit, below `2 ^ 64`. -/
def size : Codec Nat := natural "usize" Number.countBound

/-- A number of iterations, below `2 ^ 32`. -/
def iterations : Codec Nat := natural "u32" Number.indexBound

/-- A whole number of 64 bits with a sign. -/
def integer64 : Codec Int := integer "i64" (-0x8000000000000000) 0x8000000000000000

/-- A value or `null`. -/
def option (c : Codec α) : Codec (Option α) where
  encode := .ofOption c.encode
  decode
    | .null => .ok none
    | d => (c.decode d).map some

/-- The values of the items of an array. -/
def decodeItems (c : Codec α) (stop : Option Stop) : List Document → Decoded (List α)
  | [] => do endWanted stop; return []
  | d :: ds => do return (← c.decode d) :: (← decodeItems c stop ds)

/-- A list. -/
def list (c : Codec α) : Codec (List α) where
  encode as := .array (as.map c.encode)
  decode
    | .array items stop => decodeItems c stop items
    | d => d.mismatch "a sequence"

/-- The entries of a map from names. -/
def decodeEntries (c : Codec α) (stop : Option Stop) :
    List (Literal × Document) → Decoded (List (String × α))
  | [] => do endWanted stop; return []
  | (name, d) :: fs => do
    let k ← name.decode
    let a ← c.decode d
    return (k, a) :: (← decodeEntries c stop fs)

/-- A map from names; of two values for one name the later counts. -/
def dict (c : Codec α) : Codec (OrderedMap String α) where
  encode m := .object (m.toList.map fun e => (e.1, c.encode e.2))
  decode
    | .object fields stop => (decodeEntries c stop fields).map .ofList
    | d => d.mismatch "a map"

/-- An instant. -/
def instant : Codec Calendar.Instant where
  encode t := .string t.document
  decode
    | .string s => do
      match Calendar.Instant.ofDocument? (← s.decode) with
      | .ok t => return t
      | .error fault => throw (.data (.timestamp fault))
    | d => d.mismatch "an RFC 3339 formatted date and time string"

/-- An identifier of 128 bits. -/
def uuid : Codec Uuid where
  encode u := .string u.text
  decode
    | .string s => do
      match Uuid.ofText? (← s.decode) with
      | .ok u => return u
      | .error fault => throw (.data (.uuid fault))
    | d => d.mismatch "a formatted UUID string"

/-- The value of a name among variants. -/
def variant (variants : List (String × α)) (name : String) : Decoded α :=
  match variants.lookup name with
  | some a => .ok a
  | none => .error (.data (.unknownVariant name (variants.map (·.1))))

/-- The name of one of several variants. -/
def decodeVariantName (variants : List (String × α)) : Document → Decoded α
  | .string s => do variant variants (← s.decode)
  | d => d.mismatch "variant identifier"

/-- One of several named variants: its name, or an object with `null` under its name. -/
def decodeVariant (variants : List (String × α)) : Document → Decoded α
  | .string s => do variant variants (← s.decode)
  | .object ((name, d) :: more) stop => do
    let a ← variant variants (← name.decode)
    match d with
    | .null => pure ()
    | d => d.mismatch "unit"
    match more, stop with
    | [], none => return a
    | [], some ⟨.endInObject, _⟩ => throw (.text .endInObject)
    | _, _ => throw (.text .expectedValue)
  | .object [] (some stop) => .error (.text stop.wanted)
  | .broken stop => .error (.text stop.wanted)
  | _ => .error (.text .expectedValue)

end Codec

end NetAudit.Json
