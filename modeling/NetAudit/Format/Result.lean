import NetAudit.Format.Measurement
import NetAudit.Job
import NetAudit.Report

/-!
# Results as documents

Windows, jobs, summaries, entries, reports and messages.
-/

namespace NetAudit

open Json

def Window.codec : Codec Window :=
  Codec.record "RunWindow" [
      Field.required "start" Codec.instant,
      Field.required "end" Codec.instant]
    (fun (start, stop, ()) => ⟨start, stop⟩)
    (fun w => (w.start, w.stop, ()))

def Job.codec : Codec Job :=
  Codec.record "ValidationJob" [
      Field.required "window_start" Codec.instant,
      Field.required "window_end" Codec.instant,
      Field.required "remaining_iterations" Codec.iterations]
    (fun (windowStart, windowEnd, remaining, ()) => ⟨windowStart, windowEnd, remaining⟩)
    (fun j => (j.windowStart, j.windowEnd, j.remainingIterations, ()))

def SummaryId.codec : Codec SummaryId := Codec.uuid.map SummaryId.mk SummaryId.uuid

def EntryId.codec : Codec EntryId := Codec.uuid.map EntryId.mk EntryId.uuid

/-- Numbers of things by name are an object. -/
def Counts.codec : Codec Counts := Codec.dict Codec.count

def Summary.codec : Codec Summary :=
  Codec.record "ValidationSummary" [
      Field.required "measurement_type" Kind.codec,
      Field.optional "window_start" Codec.instant,
      Field.optional "window_end" Codec.instant,
      Field.required "record_count" Codec.count,
      Field.required "error_count" Codec.count,
      Field.required "per_error_type_counts" Counts.codec,
      Field.omittable "error" Codec.string.option none Option.isNone]
    (fun (kind, windowStart, windowEnd, recordCount, errorCount, errorCounts, error, ()) =>
      ⟨kind, windowStart, windowEnd, recordCount, errorCount, errorCounts, error⟩)
    (fun s =>
      (s.kind, s.windowStart, s.windowEnd, s.recordCount, s.errorCount, s.errorCounts, s.error, ()))

def Entry.codec : Codec Entry :=
  Codec.record "ValidationEntry" [
      Field.required "summary" SummaryId.codec,
      Field.required "measurement" MeasurementId.codec,
      Field.required "error_types" (Codec.list Codec.string)]
    (fun (summary, measurement, errors, ()) => ⟨summary, measurement, errors⟩)
    (fun e => (e.summary, e.measurement, e.errors, ()))

/-- A stored value is its name and its fields side by side. -/
def Stored.codec (name : Codec ι) (value : Codec α) : Codec (Stored ι α) :=
  (Codec.beside "Stored" "id" name value).map (fun p => ⟨p.1, p.2⟩) (fun s => (s.id, s.value))

def KindReport.codec : Codec KindReport :=
  Codec.record "TypeReport" [
      Field.required "measurement_type" Kind.codec,
      Field.optional "summary_id" SummaryId.codec,
      Field.required "record_count" Codec.count,
      Field.required "error_count" Codec.count,
      Field.required "per_error_category_counts" Counts.codec,
      Field.required "unknown_type" Codec.bool,
      Field.required "details" (Codec.list Codec.string)]
    (fun (kind, summary, recordCount, errorCount, errorCounts, isUnknown, details, ()) =>
      ⟨kind, summary, recordCount, errorCount, errorCounts, isUnknown, details⟩)
    (fun k =>
      (k.kind, k.summary, k.recordCount, k.errorCount, k.errorCounts, k.isUnknown, k.details, ()))

def Report.codec : Codec Report :=
  Codec.record "ValidationReport" [
      Field.required "run_id" Codec.string,
      Field.required "window_start" Codec.instant,
      Field.required "window_end" Codec.instant,
      Field.required "per_type" (Codec.dict KindReport.codec),
      Field.required "skipped_records" Codec.count,
      Field.required "repaired_references" Codec.count,
      Field.required "entries_persisted" Codec.size,
      Field.omittable "unscheduled_windows" (Codec.list Window.codec) [] List.isEmpty]
    (fun (run, windowStart, windowEnd, kinds, skipped, repaired, entryCount, unscheduled, ()) =>
      ⟨run, windowStart, windowEnd, kinds, skipped, repaired, entryCount, unscheduled⟩)
    (fun r =>
      (r.run, r.windowStart, r.windowEnd, r.kinds, r.skipped, r.repaired, r.entryCount,
        r.unscheduled, ()))

def Notification.codec : Codec Notification :=
  Codec.record "Notification" [
      Field.required "sender" Codec.string,
      Field.required "recipient" Codec.string,
      Field.required "subject" Codec.string,
      Field.required "body" Codec.string]
    (fun (sender, recipient, subject, body, ()) => ⟨sender, recipient, subject, body⟩)
    (fun n => (n.sender, n.recipient, n.subject, n.body, ()))

end NetAudit
