/-!
# Configuration

How large the pages of a query are, how many days one request may cover, what a report shows, how
much the dashboards take in, and to whom reports go.
-/

namespace NetAudit

/-- The settings of the program, with their defaults. -/
structure Config where
  pageSize : Nat := 500
  /-- The days that one request may cover. -/
  maxIterations : Nat := 366
  /-- Reports show the measurements with errors. -/
  printInvalidDetail : Bool := true
  /-- Reports show all measurements. -/
  printAllValues : Bool := false
  dashboardEntryLimit : Nat := 1000
  timeseriesPointLimit : Nat := 100
  topErrorLimit : Nat := 10
  sender : Option String := none
  recipient : Option String := none
  subject : String := "Daily validation results"
deriving DecidableEq, Repr

end NetAudit
