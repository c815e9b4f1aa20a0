import NetAudit.Json.Token

/-!
# Reading a JSON text

A text is read token by token. A `Place` is where the reading stands: what is complete of the arrays
and objects that are open, and what may come next. `Place.advance` takes one token, `Place.finish`
the end of the text; where neither is possible the document breaks off.
-/

namespace NetAudit.Json

/-- An array or object that is open around the place where a text is being read. What is complete
of it stands newest first. -/
inductive Frame where
  | array (before : List Document)
  | field (before : List (Literal × Document)) (name : Literal)

/-- A document with the arrays and objects that are open around it, the innermost first. -/
def plug : List Frame → Document → Document
  | [], d => d
  | .array before :: fs, d => plug fs (.array (d :: before).reverse none)
  | .field before name :: fs, d => plug fs (.object ((name, d) :: before).reverse none)

/-- Where the reading of a text stands. -/
inductive Place where
  /-- A value has to come. -/
  | value (open_ : List Frame)
  /-- An array has begun. -/
  | firstItem (open_ : List Frame)
  /-- There was a comma in an array. -/
  | nextItem (before : List Document) (open_ : List Frame)
  /-- An object has begun. -/
  | firstName (open_ : List Frame)
  /-- There was a comma in an object. -/
  | nextName (before : List (Literal × Document)) (open_ : List Frame)
  /-- There was a name in an object. -/
  | colon (before : List (Literal × Document)) (name : Literal) (open_ : List Frame)
  /-- A value is complete. -/
  | after (d : Document) (open_ : List Frame)
  /-- The text has broken off. -/
  | stopped (d : Document)
  /-- There is text after the document. -/
  | trailing (d : Document)

namespace Place

/-- The text breaks off in an array. -/
def stopArray (before : List Document) (fs : List Frame) (stop : Stop) : Document :=
  plug fs (.array before.reverse (some stop))

/-- The text breaks off in an object. -/
def stopObject (before : List (Literal × Document)) (fs : List Frame) (stop : Stop) : Document :=
  plug fs (.object before.reverse (some stop))

/-- A token comes where a value has to. -/
def enter (fs : List Frame) : Token → Place
  | .openArray => .firstItem fs
  | .openObject => .firstName fs
  | .scalar d => .after d fs
  | .string s => .after (.string s) fs
  | .brokenString stop => .stopped (plug fs (.broken stop))
  | .garbled stop => .stopped (plug fs (.garbled stop))
  | .closeArray | .closeObject | .comma | .colon =>
    .stopped (plug fs (.garbled (.same .expectedValue)))

/-- A token comes where a name has to. -/
def enterName (before : List (Literal × Document)) (fs : List Frame) : Token → Place
  | .string s => .colon before s fs
  | .brokenString stop => .stopped (stopObject before fs stop)
  | _ => .stopped (stopObject before fs (.same .expectedName))

/-- A token comes. -/
def advance : Place → Token → Place
  | .value fs, t => enter fs t
  | .firstItem fs, .closeArray => .after (.array [] none) fs
  | .firstItem fs, t => enter (.array [] :: fs) t
  | .nextItem before fs, .closeArray =>
    .stopped (stopArray before fs ⟨.commaAtEnd, .expectedValue⟩)
  | .nextItem before fs, t => enter (.array before :: fs) t
  | .firstName fs, .closeObject => .after (.object [] none) fs
  | .firstName fs, t => enterName [] fs t
  | .nextName before fs, .closeObject =>
    .stopped (stopObject before fs ⟨.commaAtEnd, .expectedName⟩)
  | .nextName before fs, t => enterName before fs t
  | .colon before name fs, .colon => .value (.field before name :: fs)
  | .colon before name fs, _ =>
    .stopped (plug (.field before name :: fs) (.broken (.same .expectedColon)))
  | .after d (.array before :: fs), .comma => .nextItem (d :: before) fs
  | .after d (.array before :: fs), .closeArray => .after (.array (d :: before).reverse none) fs
  | .after d (.array before :: fs), _ =>
    .stopped (stopArray (d :: before) fs (.same .expectedCommaOrBracket))
  | .after d (.field before name :: fs), .comma => .nextName ((name, d) :: before) fs
  | .after d (.field before name :: fs), .closeObject =>
    .after (.object ((name, d) :: before).reverse none) fs
  | .after d (.field before name :: fs), _ =>
    .stopped (stopObject ((name, d) :: before) fs (.same .expectedCommaOrBrace))
  | .after d [], _ => .trailing d
  | .stopped d, _ => .stopped d
  | .trailing d, _ => .trailing d

/-- The text ends. -/
def finish : Place → Reading
  | .value fs => ⟨plug fs (.broken (.same .endInValue)), false⟩
  | .firstItem fs => ⟨stopArray [] fs (.same .endInArray), false⟩
  | .nextItem before fs => ⟨stopArray before fs (.same .endInValue), false⟩
  | .firstName fs => ⟨stopObject [] fs (.same .endInObject), false⟩
  | .nextName before fs => ⟨stopObject before fs ⟨.endInValue, .endInObject⟩, false⟩
  | .colon before name fs =>
    ⟨plug (.field before name :: fs) (.broken (.same .endInObject)), false⟩
  | .after d [] => ⟨d, false⟩
  | .after d (.array before :: fs) => ⟨stopArray (d :: before) fs (.same .endInArray), false⟩
  | .after d (.field before name :: fs) =>
    ⟨stopObject ((name, d) :: before) fs (.same .endInObject), false⟩
  | .stopped d => ⟨d, false⟩
  | .trailing d => ⟨d, true⟩

end Place

/-- The document that a text holds, as far as it holds one. -/
def read (s : String) : Reading :=
  ((tokens s.toList).foldl Place.advance (.value [])).finish

end NetAudit.Json
