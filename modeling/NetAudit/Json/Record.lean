import NetAudit.Json.Codec

/-!
# Records in documents

A record is written as an object, and is found in an object, whatever the order of its fields, or
in an array of its fields in their order. Fields that the record does not have are passed over. The
fields of a record are a list of `Field`s, so that writing and finding are one definition each for
all records.
-/

namespace NetAudit.Json

/-- A field of a record. -/
structure Field where
  name : String
  type : Type
  codec : Codec type
  /-- The value if an object has no such field. -/
  absent : Option type
  /-- The value if an array of fields ends before it. -/
  cutOff : Option type
  /-- Values that are not written. -/
  hidden : type → Bool

namespace Field

/-- A field that has to be there. -/
def required (name : String) (c : Codec α) : Field := ⟨name, α, c, none, none, fun _ => false⟩

/-- A field that an object may lack and an array may not. -/
def optional (name : String) (c : Codec α) : Field :=
  ⟨name, Option α, c.option, some none, none, fun _ => false⟩

/-- A field that may be left out. -/
def withDefault (name : String) (c : Codec α) (a : α) : Field :=
  ⟨name, α, c, some a, some a, fun _ => false⟩

/-- A field that may be left out, and that is left out where it holds the value that then counts. -/
def omittable (name : String) (c : Codec α) (a : α) (isDefault : α → Bool) : Field :=
  ⟨name, α, c, some a, some a, isDefault⟩

end Field

/-- Values of all fields. -/
def Row : List Field → Type
  | [] => Unit
  | f :: fs => f.type × Row fs

/-- Values of the fields that have been found. -/
def Slots : List Field → Type
  | [] => Unit
  | f :: fs => Option f.type × Slots fs

namespace Slots

/-- No field has been found. -/
def none : (fs : List Field) → Slots fs
  | [] => ()
  | _ :: fs => (Option.none, none fs)

/-- A field has been found: the slots with its value, or nothing if the record has no such field. -/
def put (name : String) (d : Document) : (fs : List Field) → Slots fs → Decoded (Option (Slots fs))
  | [], () => .ok Option.none
  | f :: fs, (slot, slots) =>
    if name = f.name then
      match slot with
      | some _ => .error (.data (.duplicateField name))
      | Option.none => do return some (some (← f.codec.decode d), slots)
    else do
      return (← put name d fs slots).map fun slots => (slot, slots)

/-- The values of all fields, once all that the object has were found. -/
def row : (fs : List Field) → Slots fs → Decoded (Row fs)
  | [], () => .ok ()
  | f :: fs, (slot, slots) =>
    match slot.or f.absent with
    | some a => do return (a, ← row fs slots)
    | Option.none => .error (.data (.missingField f.name))

/-- Find the fields of an object one after the other. -/
def ofFields (fs : List Field) (stop : Option Stop) :
    List (Literal × Document) → Slots fs → Decoded (Slots fs)
  | [], slots => do endWanted stop; return slots
  | (name, d) :: rest, slots => do
    match ← put (← name.decode) d fs slots with
    | some slots => ofFields fs stop rest slots
    | Option.none =>
      d.skip
      ofFields fs stop rest slots

end Slots

namespace Row

/-- No more is wanted of an array than the `wanted` items that were found in it. -/
def ofItemsEnd (wanted : Nat) : List Document → Option Stop → Decoded Unit
  | [], none => .ok ()
  | [], some ⟨.endInArray, _⟩ => .error (.text .endInArray)
  | [], some ⟨.commaAtEnd, _⟩ => .error (.text .commaAtEnd)
  | [], some _ => .error (.text .textAtEnd)
  | ds, _ => .error (.surplus (wanted + ds.length) wanted)

/-- The values of the fields from the one with number `index` on, found in an array. -/
def ofItems (wanted : String) (stop : Option Stop) (index : Nat) :
    (fs : List Field) → List Document → Decoded (Row fs)
  | [], ds => ofItemsEnd index ds stop
  | f :: fs, d :: ds => do return (← f.codec.decode d, ← ofItems wanted stop (index + 1) fs ds)
  | f :: fs, [] => do
    endWanted stop
    match f.cutOff with
    | some a => return (a, ← ofItems wanted stop (index + 1) fs [])
    | none => throw (.data (.wrongLength index wanted))

/-- The fields of an object. -/
def toFields : (fs : List Field) → Row fs → List (String × Json)
  | [], () => []
  | f :: fs, (a, row) =>
    if f.hidden a then toFields fs row else (f.name, f.codec.encode a) :: toFields fs row

end Row

/-- How messages call a record with its number of fields. -/
def elementsText (name : String) (n : Nat) : String :=
  "struct " ++ name ++ " with " ++ toString n ++ if n = 1 then " element" else " elements"

namespace Codec

/-- A record that messages call by `name`. -/
def record (name : String) (fs : List Field) (ofRow : Row fs → α) (toRow : α → Row fs) :
    Codec α where
  encode a := .object (Row.toFields fs (toRow a))
  decode
    | .object fields stop => do
      return ofRow (← Slots.row fs (← Slots.ofFields fs stop fields (.none fs)))
    | .array items stop => do
      return ofRow (← Row.ofItems (elementsText name fs.length) stop 0 fs items)
    | d => d.mismatch ("struct " ++ name)

/-- The field `name` of an object and, kept for later, all its other fields. -/
def takeField (c : Codec α) (name : String) (stop : Option Stop) :
    List (Literal × Document) → Option α → Decoded (Option α × List (Literal × Document))
  | [], found => do endWanted stop; return (found, [])
  | (k, d) :: rest, found => do
    let key ← k.decode
    if key = name then
      if found.isSome then throw (.data (.duplicateField name))
      takeField c name stop rest (some (← c.decode d))
    else do
      d.survey Document.surveyDepth
      let (found, others) ← takeField c name stop rest found
      return (found, (k, d) :: others)

/-- An object that holds one value under `name` and the fields of another beside it. -/
def beside (record name : String) (c : Codec α) (other : Codec β) : Codec (α × β) where
  encode := fun (a, b) =>
    match other.encode b with
    | .object fields => .object ((name, c.encode a) :: fields)
    | j => j
  decode
    | .object fields stop => do
      let (found, others) ← takeField c name stop fields none
      match found with
      | none => throw (.data (.missingField name))
      | some a => return (a, ← (other.decode (.object others none)).mapError .ofKept)
    | d => d.mismatch ("struct " ++ record)

end Codec

end NetAudit.Json
