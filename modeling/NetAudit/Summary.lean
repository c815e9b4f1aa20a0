import NetAudit.Measurement.Record
import NetAudit.Number.Natural
import NetAudit.Uuid
import NetAudit.Window

/-!
# Summaries and entries

What a run keeps of its results: a `Summary` for each kind of measurement it saw, and an `Entry` for
each measurement with errors, which points to the summary of its run and kind. Both are stored
under identifiers of 128 bits.
-/

namespace NetAudit

open Calendar (Instant)

/-- Numbers of things by name. -/
abbrev Counts := OrderedMap String Nat

/-- One more of a name. -/
def Counts.bump (counts : Counts) (name : String) : Counts :=
  counts.update name fun n => n.getD 0 + 1

/-- The sum of counts in 64 bits. -/
def countSum (ns : List Nat) : Nat := Number.total ns % Number.countBound

/-- The results for one kind of measurement. -/
structure Summary where
  kind : Kind
  windowStart : Option Instant
  windowEnd : Option Instant
  recordCount : Nat
  errorCount : Nat
  errorCounts : Counts
  error : Option String
deriving DecidableEq

namespace Summary

/-- The mark of a kind without a validator. -/
def unknownMark : String := "UnknownType"

/-- A summary of nothing yet. -/
def new (kind : Kind) : Summary := ⟨kind, none, none, 0, 0, .empty, none⟩

/-- A summary of nothing yet, for a kind without a validator. -/
def unknown (kind : Kind) : Summary := { new kind with error := some unknownMark }

/-- The summary is marked as that of a kind without a validator. -/
def isUnknown (s : Summary) : Bool := s.error == some unknownMark

/-- Note the window; the first that is noted stays. -/
def stamp (s : Summary) (w : Window) : Summary :=
  if s.windowStart.isSome then s
  else { s with windowStart := some w.start, windowEnd := some w.stop }

/-- Count a measurement. -/
def countRecord (s : Summary) : Summary := { s with recordCount := s.recordCount + 1 }

/-- Count a measurement with errors, and each of its tags. -/
def countErrors (s : Summary) (tags : List String) : Summary :=
  { s with errorCount := s.errorCount + 1, errorCounts := tags.foldl Counts.bump s.errorCounts }

/-- The counts of tags as a list of `tag:count`. -/
def errorCountList (s : Summary) : List String :=
  s.errorCounts.toList.map fun e => e.1 ++ ":" ++ toString e.2

end Summary

/-- The texts before and after the last colon. -/
def cutLastColon (cs : List Char) : Option (List Char × List Char) :=
  let after := (cs.reverse.takeWhile (· != ':')).reverse
  match cs.reverse.dropWhile (· != ':') with
  | [] => none
  | _ :: before => some (before.reverse, after)

/-- The tag and the count of an item `tag:count`. -/
def parseErrorCount? (item : String) : Option (String × Nat) := do
  let (tag, count) ← cutLastColon item.toList
  return (String.ofList tag, ← Number.natural? Number.countBound count)

/-- The counts of a list of `tag:count`; items of any other form are passed over. -/
def parseErrorCounts (items : List String) : Counts :=
  .ofList (items.filterMap parseErrorCount?)

/-- A number from which identifiers are counted, in the form of version 4, with its upper half by
chance. Summaries and entries take every other number each. -/
def firstIdentifier (chance : Nat) : Nat :=
  ((chance &&& 0xffffffffffff0fff) ||| 0x4000) <<< 64 ||| 0x8000000000000000

/-- The name of a stored summary. -/
structure SummaryId where
  uuid : Uuid
deriving DecidableEq

/-- The name of a stored entry. -/
structure EntryId where
  uuid : Uuid
deriving DecidableEq

namespace SummaryId

/-- The text of a name. -/
def text (id : SummaryId) : String := id.uuid.text

/-- The name of the summary that is stored after `n` others. -/
def nth (first n : Nat) : SummaryId := ⟨.ofNat (first + 2 * n)⟩

end SummaryId

/-- The name of the entry that is stored after `n` others. -/
def EntryId.nth (first n : Nat) : EntryId := ⟨.ofNat (first + 2 * n + 1)⟩

/-- A measurement with errors. -/
structure Entry where
  summary : SummaryId
  measurement : MeasurementId
  errors : List String
deriving DecidableEq

/-- A value with the name under which it is stored. -/
structure Stored (ι α : Type) where
  id : ι
  value : α
deriving DecidableEq

/-- What a summary counts. -/
inductive Metric where
  | records
  | errors
deriving DecidableEq

namespace Metric

/-- The name of a metric. -/
def name : Metric → String
  | records => "record_count"
  | errors => "error_count"

/-- The metric with a name. -/
def ofName? (s : String) : Except String Metric :=
  if s = records.name then .ok records
  else if s = errors.name then .ok errors
  else .error ("unknown summary metric: " ++ s)

/-- The count of a summary. -/
def value : Metric → Summary → Nat
  | records, s => s.recordCount
  | errors, s => s.errorCount

end Metric

end NetAudit
