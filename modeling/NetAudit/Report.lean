import NetAudit.Job
import NetAudit.Summary
import NetAudit.Text.Line

/-!
# Reports

What a run tells its caller: the counts for each kind of measurement, the details of measurements,
and how many records were passed over or repaired. `Report.text` is the report as a text for people.
-/

namespace NetAudit

open Calendar (Instant)

/-- The results for one kind of measurement. -/
structure KindReport where
  kind : Kind
  /-- The name of the stored summary, if there is one. -/
  summary : Option SummaryId
  recordCount : Nat
  errorCount : Nat
  errorCounts : Counts
  /-- The kind has no validator. -/
  isUnknown : Bool
  details : List String
deriving DecidableEq

/-- The results of one run. -/
structure Report where
  run : String
  windowStart : Instant
  windowEnd : Instant
  /-- The results by the tags of the kinds. -/
  kinds : OrderedMap String KindReport
  /-- The number of records whose device is gone. -/
  skipped : Nat
  /-- The number of records whose reference to a task was cleared. -/
  repaired : Nat
  entryCount : Nat
  /-- The windows that no queue took. -/
  unscheduled : List Window
deriving DecidableEq

namespace Report

/-- The results for a kind. -/
def find? (r : Report) (k : Kind) : Option KindReport := r.kinds.find? k.tag

/-- The number of records that were counted. -/
def recordTotal (r : Report) : Nat := countSum (r.kinds.values.map KindReport.recordCount)

/-- The number of records with errors. -/
def errorTotal (r : Report) : Nat := countSum (r.kinds.values.map KindReport.errorCount)

/-! ### The text of a report -/

/-- The two lines at the head of a report. -/
def header (r : Report) : List String := [
  "Validation results for " ++ r.windowStart.withOffset ++ " to " ++ r.windowEnd.withOffset ++
    " (" ++ r.run ++ ")",
  toString r.recordTotal ++ " records, " ++ toString r.errorTotal ++ " invalid, " ++
    toString r.skipped ++ " skipped, " ++ toString r.repaired ++ " task references repaired"]

/-- The line that stands above the results for a kind. -/
def kindLine (tag : String) (k : KindReport) : String :=
  tag ++ (if k.isUnknown then " (no validator)" else "") ++ ": " ++ toString k.recordCount ++
    " records, " ++ toString k.errorCount ++ " invalid"

/-- The lines of one detail: an empty one, and those of the detail with an indent. -/
def detailLines (detail : String) : List String :=
  "" :: (Text.lines detail).map ("    " ++ ·)

/-- The lines of the results for a kind. -/
def kindLines (tag : String) (k : KindReport) : List String :=
  "" :: kindLine tag k :: k.errorCounts.toList.map (fun e => "  " ++ e.1 ++ ": " ++ toString e.2) ++
    k.details.flatMap detailLines

/-- The lines of a report. -/
def textLines (r : Report) : List String :=
  r.header ++ r.kinds.toList.flatMap fun e => kindLines e.1 e.2

/-- The text of a report. -/
def text (r : Report) : String := String.join (r.textLines.map (· ++ "\n"))

end Report

end NetAudit
