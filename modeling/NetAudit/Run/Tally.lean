import NetAudit.Config
import NetAudit.Log.Event
import NetAudit.Report
import NetAudit.Text.Blank

/-!
# What a run has counted so far

A run keeps an `Account` for each kind of measurement. The kinds with a validator have one from the
start; any other kind gets one with its first record, marked as unknown.

`Account.score` counts and scores one record; `scoreLog` is what the log says about it.
-/

namespace NetAudit

/-- A record with errors, whose summary is not yet stored. -/
structure PendingEntry where
  measurement : MeasurementId
  errors : List String
deriving DecidableEq

/-- The entry of a record under a stored summary. -/
def PendingEntry.attach (p : PendingEntry) (summary : SummaryId) : Entry :=
  ⟨summary, p.measurement, p.errors⟩

/-- What was counted of one kind. -/
structure Account where
  summary : Summary
  pending : List PendingEntry
  details : List String
deriving DecidableEq

/-- The detail of a scored record. -/
def detailText (device : DeviceInfo) (m : Measurement) (v : Validator) (o : Outcome) : String :=
  "Errors: " ++ ", ".intercalate o.errors ++ "\nTime: " ++ m.timestamp.withOffset ++
    "\nDevice: " ++ device.id.text ++ "\nDetails:\n" ++
    String.ofList (Text.trimRight v.detail.toList)

/-- The record is shown in the report. -/
def Config.shows (c : Config) (o : Outcome) : Bool :=
  c.printAllValues || (c.printInvalidDetail && !o.isValid)

namespace Account

/-- An account of nothing. -/
def new (s : Summary) : Account := ⟨s, [], []⟩

/-- Count a record. The first one also stamps the summary with the window. -/
def count (w : Window) (a : Account) : Account :=
  { a with summary := (a.summary.stamp w).countRecord }

/-- Enter the outcome for a record that was counted. -/
def enter (c : Config) (device : DeviceInfo) (m : Measurement) (v : Validator) (a : Account) :
    Account :=
  let o := v.score
  let a := if c.shows o then { a with details := a.details ++ [detailText device m v o] } else a
  if o.isValid then a
  else
    { a with
      summary := a.summary.countErrors o.errors
      pending := a.pending ++ [⟨m.id, o.errors⟩] }

/-- Count a record and score it, if its kind has a validator. -/
def score (c : Config) (w : Window) (device : DeviceInfo) (m : Measurement) (a : Account) :
    Account :=
  match Validator.of? m with
  | .ok v => (a.count w).enter c device m v
  | .error _ => a.count w

end Account

/-- What the log says about the score of a record. -/
def scoreLog (c : LogContext) (m : Measurement) : List LogEntry :=
  match Validator.of? m with
  | .ok v =>
    v.score.log c ++
      if v.score.isValid then [] else [⟨some c, .recordInvalid v.score.errors⟩]
  | .error e => [⟨some c, .validatorMissing e⟩]

/-- What a run has counted so far. -/
structure Tally where
  accounts : OrderedMap Kind Account
  skipped : Nat
  repaired : Nat
deriving DecidableEq

namespace Tally

/-- Nothing has been counted. -/
def initial : Tally :=
  ⟨.ofList (Kind.validated.map fun k => (k, .new (.new k))), 0, 0⟩

/-- A record was passed over. -/
def skip (t : Tally) : Tally := { t with skipped := t.skipped + 1 }

/-- A record was repaired. -/
def repair (t : Tally) : Tally := { t with repaired := t.repaired + 1 }

/-- Count and score a record on the account of its kind. -/
def score (c : Config) (w : Window) (device : DeviceInfo) (m : Measurement) (t : Tally) : Tally :=
  { t with
    accounts := t.accounts.update m.kind fun a =>
      (a.getD (.new (.unknown m.kind))).score c w device m }

/-- What the log says when the account of a record's kind is looked up. -/
def openLog (c : LogContext) (m : Measurement) (t : Tally) : List LogEntry :=
  if t.accounts.contains m.kind then [] else [⟨some c, .unknownKindSeen m.kind⟩]

end Tally

end NetAudit
