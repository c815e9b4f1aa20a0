import NetAudit.Address
import NetAudit.Measurement.Record
import NetAudit.Number.Decimal
import NetAudit.Text.Quotes

/-!
# Reading the values of a measurement

A value is wanted as a text, a number or an address. It may be missing, or not be what is wanted;
a value in quotes is read as one without. A number is never a NaN.
-/

namespace NetAudit

/-- Why a value cannot be read as what is wanted. -/
inductive FieldFault where
  | missing (name : String)
  | malformed (name : String)
deriving DecidableEq, Repr

/-- The name of the value that cannot be read. -/
def FieldFault.field : FieldFault → String
  | missing name => name
  | malformed name => name

/-- The wording of a fault. -/
def FieldFault.message : FieldFault → String
  | missing name => "missing field " ++ name
  | malformed name => "malformed field " ++ name

/-- The number that a value stands for. -/
def parseNumber? (value : String) : Option Number.Binary64 :=
  Number.decimal? (Text.unquoteChars value.toList)

/-- The address that a value stands for. -/
def parseAddress? (value : String) : Option Address :=
  Address.ofChars? (Text.unquoteChars value.toList)

namespace Values

/-- The text of a value as it stands. -/
def text (vs : Values) (name : String) : Except FieldFault String :=
  match vs.find? name with
  | some value => .ok value
  | none => .error (.missing name)

/-- The value read by `parse`. -/
def readAs (parse : String → Option α) (vs : Values) (name : String) : Except FieldFault α := do
  match parse (← vs.text name) with
  | some a => return a
  | none => throw (.malformed name)

/-- The number under a name. -/
def number (vs : Values) (name : String) : Except FieldFault Number.Binary64 :=
  readAs parseNumber? vs name

/-- The address under a name. -/
def address (vs : Values) (name : String) : Except FieldFault Address :=
  readAs parseAddress? vs name

/-- All values, a line each, by ascending name. -/
def detail (vs : Values) : String :=
  String.join (vs.toList.map fun e => e.1 ++ ": " ++ e.2 ++ "\n")

end Values

end NetAudit
