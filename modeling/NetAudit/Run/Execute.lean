import NetAudit.Run.Attempt
import NetAudit.Run.Tally
import NetAudit.Store.Repair
import NetAudit.Store.Stream

/-!
# Runs

A run goes through the measurements of a window, scores each of them and stores what it found. It
consists of steps of four sorts: a page is fetched (`RecordStream.fetch`), a record is observed
(`Run.observe`), a summary is stored (`Run.storeSummary`) and an entry is stored (`Run.storeEntry`).
All pages are fetched and all records observed before the first summary is stored.
-/

namespace NetAudit

open Calendar (Instant)

/-- A run that is to be made. -/
structure Run where
  /-- The name of the run. -/
  name : String
  window : Window
  startedAt : Instant
  /-- The number of records that are taken at most. -/
  limit : Option Nat
  config : Config
deriving DecidableEq

namespace Run

variable {σ : Type}

/-- The context of what the log says about a run. -/
def context (r : Run) : LogContext := { run := r.name }

/-- The measurements that a run goes through. -/
def query (r : Run) : Query := .ofWindow r.window r.limit

/-! ### Observing records -/

/-- Enter what became of the repair of a record. -/
def noteRepair (c : LogContext) (t : Tally) : Except StoreError Bool → Action σ Tally
  | .ok true => do
    Action.log (some c) .taskRepaired
    return t.repair
  | .ok false => return t
  | .error e => do
    Action.log (some c) (.taskRepairFailed e)
    return t

/-- Look at a record: without its device it is passed over, else it is repaired, counted and
scored. -/
def observe (store : Store σ) (r : Run) (t : Tally) (m : Measurement) : Action σ Tally := do
  let c := r.context.forMeasurement m.id
  match ← Action.ofOp (store.device m.device) with
  | .ok (some device) =>
    let repair ← m.repairTask store
    let t ← noteRepair c t repair.result
    Action.logAll (t.openLog c repair.measurement ++ scoreLog c repair.measurement)
    return t.score r.config r.window device repair.measurement
  | .ok none =>
    Action.log (some c) (.deviceMissing m.device)
    return t.skip
  | .error e =>
    Action.log (some c) (.deviceLookupFailed e)
    return t.skip

/-- Observe all records of the run. -/
def collect (store : Store σ) (r : Run) : Attempt σ Tally := do
  let stream := RecordStream.ofQuery r.query r.config.pageSize
  let (t, error) ← Attempt.of (stream.forEach store (r.observe store) .initial)
  match error with
  | none => return t
  | some e =>
    Attempt.log (some r.context) (.queryFailed e)
    Attempt.fail (.query e)

/-! ### Storing results -/

/-- Store the summary of a kind. -/
def storeSummary (store : Store σ) (r : Run) (kind : Kind) (s : Summary) : Attempt σ SummaryId :=
  Attempt.ask (some r.context) (.summaryFailed kind) (.persistence .summary)
    (Action.ofOp (store.persistSummary s))

/-- Store an entry under a stored summary. -/
def storeEntry (store : Store σ) (r : Run) (id : SummaryId) (p : PendingEntry) :
    Attempt σ EntryId :=
  Attempt.ask (some r.context) (.entryFailed p.measurement) (.persistence .entry)
    (Action.ofOp (store.persistEntry (p.attach id)))

/-- The results of an account. -/
def kindReport (a : Account) (id : Option SummaryId) : KindReport where
  kind := a.summary.kind
  summary := id
  recordCount := a.summary.recordCount
  errorCount := a.summary.errorCount
  errorCounts := a.summary.errorCounts
  isUnknown := a.summary.isUnknown
  details := a.details

/-- Store the summary of an account and then its entries, unless nothing was counted on it. -/
def storeAccount (store : Store σ) (r : Run) (kind : Kind) (a : Account) :
    Attempt σ (String × KindReport) := do
  if a.summary.recordCount = 0 then return (kind.tag, kindReport a none)
  let id ← r.storeSummary store kind a.summary
  a.pending.forM fun p => discard (r.storeEntry store id p)
  Attempt.log (some r.context)
    (.summaryStored kind id a.summary.recordCount a.summary.errorCount)
  return (kind.tag, kindReport a (some id))

/-- Store all accounts, in the order of their kinds. -/
def storeTally (store : Store σ) (r : Run) (t : Tally) :
    Attempt σ (OrderedMap String KindReport) := do
  return .ofList (← t.accounts.toList.mapM fun e => r.storeAccount store e.1 e.2)

/-! ### The whole run -/

/-- The number of entries of a tally. -/
def entryCount (t : Tally) : Nat :=
  Number.total (t.accounts.values.map fun a => a.pending.length)

/-- Make a run. The windows that could not be scheduled go into its report. -/
def execute (store : Store σ) (r : Run) (unscheduled : List Window) : Attempt σ Report := do
  Attempt.log (some r.context) (.runStarted r.startedAt r.window r.limit)
  let t ← r.collect store
  let report : Report := {
    run := r.name
    windowStart := r.window.start
    windowEnd := r.window.stop
    kinds := ← r.storeTally store t
    skipped := t.skipped
    repaired := t.repaired
    entryCount := entryCount t
    unscheduled }
  Attempt.log (some r.context)
    (.runCompleted report.recordTotal report.errorTotal report.skipped report.entryCount)
  return report

end Run

end NetAudit
