import NetAudit.Job
import NetAudit.Store.Basic
import NetAudit.Validation.Validator

/-!
# The log

What happens is told by events. An event says how grave it is and has a text; a log entry is an
event with the run and the measurement in whose course it happened, if any.
-/

namespace NetAudit

open Calendar (Instant)

/-- How grave an event is, the gravest first. -/
inductive Level where
  | error
  | warn
  | info
  | debug
  | trace
deriving DecidableEq, Repr

namespace Level

/-- The name of a level. -/
def name : Level → String
  | error => "ERROR"
  | warn => "WARN"
  | info => "INFO"
  | debug => "DEBUG"
  | trace => "TRACE"

/-- The place of a level, the gravest first. -/
def rank : Level → Nat
  | error => 0
  | warn => 1
  | info => 2
  | debug => 3
  | trace => 4

end Level

/-- The run in whose course something happens, and perhaps the measurement. -/
structure LogContext where
  run : String
  measurement : Option String := none
deriving DecidableEq, Repr

namespace LogContext

/-- The context for one measurement. -/
def forMeasurement (c : LogContext) (id : MeasurementId) : LogContext :=
  { c with measurement := some id.text }

/-- The text of a context. -/
def text (c : LogContext) : String :=
  let run := "[run=" ++ c.run ++ "]"
  match c.measurement with
  | none => run
  | some id => run ++ " [measurement=" ++ id ++ "]"

end LogContext

/-- Something that happens. -/
inductive Event where
  | requestRejected (iterations max : Nat)
  | fanoutStarted (iterations : Nat)
  | fanoutTruncated (day : Nat) (error : WindowError)
  | jobTaken (job : Job)
  | jobScheduled (w : Window)
  | jobRefused (w : Window) (error : QueueError)
  | runStarted (startedAt : Instant) (w : Window) (limit : Option Nat)
  | queryFailed (error : StoreError)
  | deviceMissing (device : DeviceId)
  | deviceLookupFailed (error : StoreError)
  | danglingTask (measurement : MeasurementId) (task : TaskId)
  | taskRepaired
  | taskRepairFailed (error : StoreError)
  | unknownKindSeen (kind : Kind)
  | validatorMissing (error : UnsupportedKind)
  | remark (r : Remark)
  | recordInvalid (errors : List String)
  | summaryFailed (kind : Kind) (error : StoreError)
  | entryFailed (measurement : MeasurementId) (error : StoreError)
  | summaryStored (kind : Kind) (id : SummaryId) (records invalid : Nat)
  | runCompleted (records invalid skipped entries : Nat)
  | notificationFailed (error : NotifyError)
  | notificationSent (recipient : String)
  | entryOrphaned (summary : SummaryId)
  | measurementMissing (measurement : MeasurementId)

/-- A text in an event is quoted. -/
def quotedField (name value : String) : String := " " ++ name ++ "=" ++ Text.quoted value

/-- A number, name or time in an event stands as it is. -/
def plainField (name value : String) : String := " " ++ name ++ "=" ++ value

/-- The text of a remark. -/
def Remark.text : Remark → String
  | .skipped rule field => "RULE_SKIPPED" ++ plainField "rule" rule ++ plainField "field" field
  | .malformed rule field =>
    "RULE_INPUT_MALFORMED" ++ plainField "rule" rule ++ plainField "field" field
  | .hopWithoutRtt hop => "HOP_RTT_MISSING" ++ plainField "hop" (toString hop)

namespace Event

/-- How grave an event is. -/
def level : Event → Level
  | queryFailed _ | summaryFailed _ _ | entryFailed _ _ | notificationFailed _ => .error
  | requestRejected _ _ | fanoutTruncated _ _ | jobRefused _ _ | deviceMissing _
  | deviceLookupFailed _ | taskRepairFailed _ => .warn
  | fanoutStarted _ | runStarted _ _ _ | danglingTask _ _ | taskRepaired | unknownKindSeen _
  | summaryStored _ _ _ _ | runCompleted _ _ _ _ | notificationSent _ => .info
  | jobTaken _ | jobScheduled _ | validatorMissing _ | remark _ | recordInvalid _
  | entryOrphaned _ | measurementMissing _ => .debug

/-- The text of an optional number. -/
def optionText : Option Nat → String
  | none => "None"
  | some n => "Some(" ++ toString n ++ ")"

/-- The text of an event. -/
def text : Event → String
  | requestRejected iterations max =>
    "REQUEST_REJECTED" ++ plainField "iterations" (toString iterations) ++
      plainField "max" (toString max)
  | fanoutStarted iterations => "RUN_FANOUT" ++ plainField "iterations" (toString iterations)
  | fanoutTruncated day error =>
    "RUN_FANOUT_TRUNCATED" ++ plainField "day" (toString day) ++ quotedField "error" error.message
  | jobTaken job =>
    "JOB_ENQUEUED" ++ plainField "queue" queueName ++ plainField "start" job.windowStart.message ++
      plainField "end" job.windowEnd.message
  | jobScheduled w =>
    "JOB_ENQUEUED" ++ quotedField "start" w.start.withOffset ++ quotedField "end" w.stop.withOffset
  | jobRefused w error =>
    "JOB_ENQUEUE_FAILED" ++ quotedField "start" w.start.withOffset ++
      quotedField "error" error.message
  | runStarted startedAt w limit =>
    "RUN_START" ++ quotedField "started_at" startedAt.withOffset ++
      quotedField "start" w.start.withOffset ++ quotedField "end" w.stop.withOffset ++
      plainField "limit" (optionText limit)
  | queryFailed error => "RUN_QUERY_FAILED" ++ quotedField "error" error.message
  | deviceMissing device =>
    "RECORD_SKIPPED" ++ quotedField "reason" "device_missing" ++ quotedField "device" device.text
  | deviceLookupFailed error =>
    "RECORD_SKIPPED" ++ quotedField "reason" "device_lookup_failed" ++
      quotedField "error" error.message
  | danglingTask measurement task =>
    "TASK_REFERENCE_DANGLING" ++ plainField "measurement" measurement.text ++
      plainField "task" task.text
  | taskRepaired => "TASK_REFERENCE_REPAIRED"
  | taskRepairFailed error => "TASK_REFERENCE_REPAIR_FAILED" ++ quotedField "error" error.message
  | unknownKindSeen kind => "UNKNOWN_TYPE_SEEN" ++ quotedField "measurement_type" kind.tag
  | validatorMissing error => "VALIDATOR_MISSING" ++ quotedField "error" error.message
  | remark r => r.text
  | recordInvalid errors => "RECORD_INVALID" ++ quotedField "errors" (",".intercalate errors)
  | summaryFailed kind error =>
    "SUMMARY_PERSIST_FAILED" ++ quotedField "measurement_type" kind.tag ++
      quotedField "error" error.message
  | entryFailed measurement error =>
    "ENTRY_PERSIST_FAILED" ++ quotedField "measurement" measurement.text ++
      quotedField "error" error.message
  | summaryStored kind id records invalid =>
    "SUMMARY_PERSISTED" ++ quotedField "measurement_type" kind.tag ++
      quotedField "summary" id.text ++ plainField "records" (toString records) ++
      plainField "invalid" (toString invalid)
  | runCompleted records invalid skipped entries =>
    "RUN_COMPLETE" ++ plainField "records" (toString records) ++
      plainField "invalid" (toString invalid) ++ plainField "skipped" (toString skipped) ++
      plainField "entries" (toString entries)
  | notificationFailed error => "NOTIFICATION_FAILED" ++ quotedField "error" error.message
  | notificationSent recipient => "NOTIFICATION_SENT" ++ quotedField "recipient" recipient
  | entryOrphaned summary => "DASHBOARD_ENTRY_ORPHANED" ++ plainField "summary" summary.text
  | measurementMissing measurement =>
    "DASHBOARD_MEASUREMENT_MISSING" ++ plainField "measurement" measurement.text

end Event

/-- An event in its context. -/
structure LogEntry where
  context : Option LogContext
  event : Event

namespace LogEntry

/-- The text of an entry without its level. -/
def message (e : LogEntry) : String :=
  match e.context with
  | none => e.event.text
  | some c => c.text ++ " " ++ e.event.text

/-- The line of an entry. -/
def line (e : LogEntry) : String := e.event.level.name ++ " " ++ e.message

end LogEntry

/-- The lines of the entries that are at least as grave as `threshold`. -/
def logLines (threshold : Level) (entries : List LogEntry) : List String :=
  (entries.filter fun e => e.event.level.rank ≤ threshold.rank).map LogEntry.line

/-- The remarks of an outcome in a context. -/
def Outcome.log (c : LogContext) (o : Outcome) : List LogEntry :=
  o.remarks.map fun r => ⟨some c, .remark r⟩

end NetAudit
