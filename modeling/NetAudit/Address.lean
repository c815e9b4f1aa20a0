import NetAudit.Number.Natural

/-!
# Internet addresses

Version 4 addresses are four decimal parts, each below 256 and without a leading zero. Version 6
addresses are eight groups of one to four hexadecimal digits; one `::` may stand for one or more
groups of zero, and the last two groups may be written as a version 4 address. With a zone, with
brackets or with anything after it the text is no address.

`Address.text` writes the one canonical form of an address.
-/

namespace NetAudit

/-- An internet address. -/
inductive Address where
  | v4 (octets : Vector UInt8 4)
  | v6 (groups : Vector UInt16 8)
deriving DecidableEq

namespace Address

/-! ### Reading -/

/-- One decimal part of a version 4 address. -/
def octet? (cs : List Char) : Option UInt8 :=
  if 3 < cs.length || (cs.head? == some '0' && 1 < cs.length) then none
  else (Number.digits? 256 cs).map UInt8.ofNat

/-- The four parts of a version 4 address. -/
def octets? (cs : List Char) : Option (Vector UInt8 4) :=
  match (cs.splitOn '.').mapM octet? with
  | some [a, b, c, d] => some #v[a, b, c, d]
  | _ => none

/-- One group of a version 6 address. -/
def group? (cs : List Char) : Option UInt16 :=
  if cs.isEmpty || 4 < cs.length then none
  else (Number.hexDigits? cs).map UInt16.ofNat

/-- The two groups that a version 4 address takes in a version 6 address. -/
def groupsOfOctets (o : Vector UInt8 4) : List UInt16 :=
  [(o[0].toUInt16 <<< 8) + o[1].toUInt16, (o[2].toUInt16 <<< 8) + o[3].toUInt16]

/-- The groups in the part of an address on one side of `::`, given as the texts between colons.
The last may be a version 4 address if `dotted` allows it. -/
def groupList? (dotted : Bool) : List (List Char) → Option (List UInt16)
  | [] => some []
  | [cs] =>
    match if dotted then octets? cs else none with
    | some o => some (groupsOfOctets o)
    | none => (group? cs).map ([·])
  | cs :: rest => do return (← group? cs) :: (← groupList? dotted rest)

/-- The groups on one side of `::`, where there may be none. -/
def side? (dotted : Bool) (cs : List Char) : Option (List UInt16) :=
  if cs.isEmpty then some [] else groupList? dotted (cs.splitOn ':')

/-- The text before and after the first `::`. -/
def cutDoubleColon : List Char → Option (List Char × List Char)
  | [] => none
  | ':' :: ':' :: cs => some ([], cs)
  | c :: cs => (cutDoubleColon cs).map fun (before, after) => (c :: before, after)

/-- Eight groups as an address. -/
def ofGroups? (gs : List UInt16) : Option (Vector UInt16 8) :=
  if h : gs.length = 8 then some ⟨gs.toArray, by simpa using h⟩ else none

/-- The groups of a version 6 address. -/
def groups? (cs : List Char) : Option (Vector UInt16 8) :=
  match cutDoubleColon cs with
  | none => (groupList? true (cs.splitOn ':')).bind ofGroups?
  | some (before, after) => do
    let front ← side? false before
    let back ← side? true after
    if 7 < front.length + back.length then none
    else ofGroups? (front ++ List.replicate (8 - front.length - back.length) 0 ++ back)

/-- The address that a text stands for. -/
def ofChars? (cs : List Char) : Option Address :=
  match octets? cs with
  | some o => some (v4 o)
  | none => (groups? cs).map v6

/-! ### Writing -/

/-- The four parts of a version 4 address with points between them. -/
def octetsText (o : Vector UInt8 4) : String :=
  ".".intercalate (o.toList.map fun b => toString b.toNat)

/-- The number of groups of zero at the beginning. -/
def leadingZeros (gs : List UInt16) : Nat := (gs.takeWhile (· == 0)).length

/-- Where the longest run of zero groups begins, the first of equally long ones. -/
def longestRun (gs : List UInt16) : Nat :=
  (List.range gs.length).foldl
    (fun best i => if leadingZeros (gs.drop best) < leadingZeros (gs.drop i) then i else best) 0

/-- Groups in lower-case digits without leading zeros, with colons between them. -/
def groupsText (gs : List UInt16) : String :=
  ":".intercalate (gs.map fun g => String.ofList (Nat.toDigits 16 g.toNat))

/-- The canonical text of a version 6 address: the longest run of two or more zero groups is
written `::`, and an address that stands for a version 4 address ends in its decimal parts. -/
def v6Text (groups : Vector UInt16 8) : String :=
  let gs := groups.toList
  match gs with
  | [0, 0, 0, 0, 0, 0xffff, g, h] =>
    "::ffff:" ++ octetsText #v[(g >>> 8).toUInt8, g.toUInt8, (h >>> 8).toUInt8, h.toUInt8]
  | gs =>
    let start := longestRun gs
    let run := leadingZeros (gs.drop start)
    if run < 2 then groupsText gs
    else groupsText (gs.take start) ++ "::" ++ groupsText (gs.drop (start + run))

/-- The canonical text of an address. -/
def text : Address → String
  | v4 o => octetsText o
  | v6 gs => v6Text gs

/-- Is it a version 6 address? -/
def isV6 : Address → Bool
  | v4 _ => false
  | v6 _ => true

end Address

end NetAudit
