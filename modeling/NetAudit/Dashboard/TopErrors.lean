import NetAudit.Run.Attempt
import NetAudit.Text.Line

/-!
# The most common errors

Devices say in words why a measurement failed. Failures whose words begin alike are counted
together, and the counts are ranked.
-/

namespace NetAudit

/-- An error in the words of devices, and how often it was met. -/
structure ErrorCount where
  error : String
  count : Nat
deriving DecidableEq, Repr

/-- The beginning of an error report, by which errors are told apart: its first five lines. -/
def errorExcerpt (error : String) : String := Text.firstLines 5 error

/-- The error of a measurement that failed, if its device has said one. -/
def Measurement.error? (m : Measurement) : Option String :=
  if m.success then none
  else (m.values.find? "error").map fun error => errorExcerpt (Text.unquote error)

namespace TopErrors

variable {σ : Type}

/-- The counts with the error of one more measurement. -/
def countError (store : Store σ) (counts : Counts) (id : MeasurementId) : Attempt σ Counts := do
  match (← Attempt.read (store.measurement id)).bind Measurement.error? with
  | some error => return counts.bump error
  | none => return counts

/-- The more common error comes first, and of two that are equally common the one whose text comes
first. -/
def outranks (a b : ErrorCount) : Bool :=
  ((compare b.count a.count).then (compare a.error b.error)).isLE

/-- The counts by rank. -/
def ranked (counts : Counts) : List ErrorCount :=
  (counts.toList.map fun e => ⟨e.1, e.2⟩).mergeSort outranks

/-- The `n` most common errors of some measurements. A measurement counts as often as it is
named. -/
def ofMeasurements (store : Store σ) (ids : List MeasurementId) (n : Nat) :
    Attempt σ (List ErrorCount) := do
  let counts ← ids.foldlM (countError store) .empty
  return (ranked counts).take n

/-- The `n` most common errors of the measurements behind some entries. -/
def ofEntries (store : Store σ) (entries : List Entry) (n : Nat) : Attempt σ (List ErrorCount) :=
  ofMeasurements store (entries.map Entry.measurement) n

/-- The `n` most common errors behind the first `limit` entries of a store. A measurement counts
once, however many runs have found errors in it. -/
def ofStore (store : Store σ) (limit n : Nat) : Attempt σ (List ErrorCount) := do
  let entries ← Attempt.read (store.entries limit)
  ofMeasurements store (entries.map fun e => e.value.measurement).eraseDups n

end TopErrors

end NetAudit
