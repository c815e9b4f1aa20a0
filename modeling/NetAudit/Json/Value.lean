/-!
# JSON values and their texts

The values that the program writes, and their two texts: on one line, and laid out with an indent
of two blanks. Numbers are whole. An object keeps its fields in the order in which they were put;
`Json.sorted` brings them, at every depth, into the order of their names.
-/

namespace NetAudit

/-- A JSON value as it is written. -/
inductive Json where
  | null
  | bool (b : Bool)
  | number (n : Int)
  | string (s : String)
  | array (items : List Json)
  | object (fields : List (String × Json))
deriving Inhabited, Repr

namespace Json

/-- A count. -/
def ofNat (n : Nat) : Json := .number n

/-- A text, or `null` for none. -/
def ofOption (f : α → Json) : Option α → Json
  | none => .null
  | some a => f a

/-! ### Strings -/

/-- A character inside a string. Only quotes, backslashes and control characters are escaped. -/
def escapedChar (c : Char) : List Char :=
  match c with
  | '"' => ['\\', '"']
  | '\\' => ['\\', '\\']
  | '\n' => ['\\', 'n']
  | '\r' => ['\\', 'r']
  | '\t' => ['\\', 't']
  | '\x08' => ['\\', 'b']
  | '\x0c' => ['\\', 'f']
  | c =>
    if c.toNat < 0x20 then
      ['\\', 'u', '0', '0', (c.toNat / 16).digitChar, (c.toNat % 16).digitChar]
    else [c]

/-- A string between quotes. -/
def stringChars (s : String) : List Char := '"' :: s.toList.flatMap escapedChar ++ ['"']

/-! ### Texts -/

mutual

/-- The text of a value on one line. -/
def chars : Json → List Char
  | .null => "null".toList
  | .bool true => "true".toList
  | .bool false => "false".toList
  | .number n => (toString n).toList
  | .string s => stringChars s
  | .array items => '[' :: itemChars items ++ [']']
  | .object fields => '\x7b' :: fieldChars fields ++ ['\x7d']

/-- The items of an array, with commas between them. -/
def itemChars : List Json → List Char
  | [] => []
  | [j] => chars j
  | j :: js => chars j ++ ',' :: itemChars js

/-- The fields of an object, with commas between them. -/
def fieldChars : List (String × Json) → List Char
  | [] => []
  | [(k, j)] => stringChars k ++ ':' :: chars j
  | (k, j) :: fs => stringChars k ++ ':' :: chars j ++ ',' :: fieldChars fs

end

/-- The text of a value on one line. -/
def text (j : Json) : String := String.ofList j.chars

/-- The beginning of a line that is indented `depth` steps. -/
def newLine (depth : Nat) : List Char := '\n' :: List.replicate (2 * depth) ' '

mutual

/-- The text of a value that stands `depth` steps deep, over several lines. -/
def prettyChars (depth : Nat) : Json → List Char
  | .array (j :: js) => '[' :: prettyItems (depth + 1) (j :: js) ++ newLine depth ++ [']']
  | .object (f :: fs) =>
    '\x7b' :: prettyFields (depth + 1) (f :: fs) ++ newLine depth ++ ['\x7d']
  | .null => "null".toList
  | .bool true => "true".toList
  | .bool false => "false".toList
  | .number n => (toString n).toList
  | .string s => stringChars s
  | .array [] => ['[', ']']
  | .object [] => ['\x7b', '\x7d']

/-- The items of an array, each on a line of its own. -/
def prettyItems (depth : Nat) : List Json → List Char
  | [] => []
  | [j] => newLine depth ++ prettyChars depth j
  | j :: js => newLine depth ++ prettyChars depth j ++ ',' :: prettyItems depth js

/-- The fields of an object, each on a line of its own. -/
def prettyFields (depth : Nat) : List (String × Json) → List Char
  | [] => []
  | [(k, j)] => newLine depth ++ stringChars k ++ ':' :: ' ' :: prettyChars depth j
  | (k, j) :: fs =>
    newLine depth ++ stringChars k ++ ':' :: ' ' :: prettyChars depth j ++
      ',' :: prettyFields depth fs

end

/-- The text of a value over several lines. -/
def pretty (j : Json) : String := String.ofList (prettyChars 0 j)

mutual

/-- The value with the fields of all its objects in the order of their names. -/
def sorted : Json → Json
  | .array items => .array (sortedItems items)
  | .object fields =>
    .object ((sortedFields fields).mergeSort fun a b => compare a.1 b.1 != .gt)
  | j => j

/-- Items with their objects in order. -/
def sortedItems : List Json → List Json
  | [] => []
  | j :: js => sorted j :: sortedItems js

/-- Fields with the objects in them in order. -/
def sortedFields : List (String × Json) → List (String × Json)
  | [] => []
  | (k, j) :: fs => (k, sorted j) :: sortedFields fs

end

end Json

end NetAudit
