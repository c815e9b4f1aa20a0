import NetAudit.Number.Natural

/-!
# Identifiers of 128 bits

The identifiers under which results are stored: thirty-two hexadecimal digits, written in lower
case in five groups. On reading, the case of letters makes no difference, and the groups may be
joined, stand in braces or follow `urn:uuid:`.
-/

namespace NetAudit

/-- An identifier of 128 bits. -/
structure Uuid where
  bits : BitVec 128
deriving DecidableEq, Repr

/-- Why a text is no identifier. -/
inductive UuidFault where
  /-- A character that is neither a digit nor a hyphen. -/
  | badCharacter (c : Char) (index : Nat)
  /-- A wrong number of digits without hyphens, or a text longer than every form. -/
  | badLength (found : Nat)
  /-- A wrong number of groups. -/
  | badGroupCount (found : Nat)
  /-- A group of a wrong length. -/
  | badGroup (index wanted found : Nat)
deriving DecidableEq, Repr

/-- The wording of a fault. -/
def UuidFault.message : UuidFault → String
  | .badCharacter c index =>
    "invalid character: found `" ++ String.singleton c ++ "` at " ++ toString index
  | .badLength found => "invalid length: found " ++ toString found
  | .badGroupCount found => "invalid group count: expected 5, found " ++ toString found
  | .badGroup index wanted found =>
    "invalid group length in group " ++ toString index ++ ": expected " ++ toString wanted ++
      ", found " ++ toString found

namespace Uuid

/-- The identifier of a number. -/
def ofNat (n : Nat) : Uuid := ⟨BitVec.ofNat 128 n⟩

/-- The lengths of the groups of digits. -/
def groupLengths : List Nat := [8, 4, 4, 4, 12]

/-- The thirty-two digits of an identifier. -/
def digits (u : Uuid) : List Char :=
  let ds := Nat.toDigits 16 u.bits.toNat
  List.replicate (32 - ds.length) '0' ++ ds

/-- Digits in groups of given lengths, with hyphens between them. -/
def hyphenated : List Nat → List Char → List Char
  | [], ds => ds
  | [_], ds => ds
  | n :: ns, ds => ds.take n ++ '-' :: hyphenated ns (ds.drop n)

/-- The text of an identifier. -/
def text (u : Uuid) : String := String.ofList (hyphenated groupLengths u.digits)

/-- What stands between braces or after `urn:uuid:`, with the number of characters before it, or
the whole text. -/
def body (cs : List Char) : List Char × Nat :=
  match cs with
  | '\x7b' :: rest => if rest.getLast? = some '\x7d' then (rest.dropLast, 1) else (cs, 0)
  | cs =>
    let (front, rest) := cs.splitAt 9
    if front.map Char.toLower = "urn:uuid:".toList then (rest, 9) else (cs, 0)

/-- The first character that is neither a digit nor a hyphen. -/
def characterFault? (index : Nat) : List Char → Option UuidFault
  | [] => none
  | c :: cs =>
    if c = '-' ∨ (Number.hexDigit? c).isSome then characterFault? (index + 1) cs
    else some (.badCharacter c index)

/-- The first group whose length is not the one it should have. What stands around the groups counts
with the last. -/
def groupFault? (around index : Nat) : List Nat → List (List Char) → Option UuidFault
  | [n], [g] => if g.length = n then none else some (.badGroup index n (g.length + around))
  | n :: ns, g :: gs =>
    if g.length = n then groupFault? around (index + 1) ns gs
    else some (.badGroup index n g.length)
  | _, _ => none

/-- What is wrong with digits in groups, or with digits that are joined where they may be. The
index of a character counts from `start`, and `around` is the length of what stands around. -/
def groupsFault? (mayJoin : Bool) (start around : Nat) (cs : List Char) : Option UuidFault :=
  match characterFault? start cs with
  | some fault => some fault
  | none =>
    let groups := cs.splitOn '-'
    if groups.length = 1 ∧ mayJoin then
      if cs.length = 32 then none else some (.badLength cs.length)
    else if groups.length ≠ 5 then some (.badGroupCount groups.length)
    else groupFault? around 0 groupLengths groups

/-- The number of bytes that characters take. -/
def byteLength : List Char → Nat
  | [] => 0
  | c :: cs => c.utf8Size + byteLength cs

/-- What is wrong with a text. A text of 32 bytes has to be joined digits and one of 36 bytes the
groups, whatever it begins with. A body of 36 bytes is judged by itself, and what stands around any
other body counts. No form is longer than 45 bytes, those of `urn:uuid:` and the groups. -/
def fault? (cs : List Char) : Option UuidFault :=
  let length := byteLength cs
  let (inner, start) := body cs
  if 45 < length then some (.badLength length)
  else if length = 32 then groupsFault? true 0 0 cs
  else if length = 36 then groupsFault? false 0 0 cs
  else if byteLength inner = 36 then groupsFault? false 0 0 inner
  else groupsFault? (start = 0) start (cs.length - inner.length) inner

/-- The identifier that a text names. -/
def ofText? (s : String) : Except UuidFault Uuid :=
  match fault? s.toList with
  | some fault => .error fault
  | none =>
    let digits := (body s.toList).1.filter (· != '-')
    .ok (ofNat ((Number.hexDigits? digits).getD 0))

end Uuid

end NetAudit
