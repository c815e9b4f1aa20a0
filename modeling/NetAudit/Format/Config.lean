import NetAudit.Config
import NetAudit.Format.Measurement

/-!
# The configuration as a document

Every setting may be left out.
-/

namespace NetAudit

open Json

def Config.codec : Codec Config :=
  let d : Config := {}
  Codec.record "ValidationConfig" [
      Field.withDefault "page_size" Codec.size d.pageSize,
      Field.withDefault "max_iterations" Codec.iterations d.maxIterations,
      Field.withDefault "print_invalid_detail" Codec.bool d.printInvalidDetail,
      Field.withDefault "print_all_values" Codec.bool d.printAllValues,
      Field.withDefault "dashboard_entry_limit" Codec.size d.dashboardEntryLimit,
      Field.withDefault "timeseries_point_limit" Codec.size d.timeseriesPointLimit,
      Field.withDefault "top_error_limit" Codec.size d.topErrorLimit,
      Field.withDefault "notification_sender" Codec.string.option d.sender,
      Field.withDefault "notification_recipient" Codec.string.option d.recipient,
      Field.withDefault "notification_subject" Codec.string d.subject]
    (fun (pageSize, maxIterations, printInvalidDetail, printAllValues, dashboardEntryLimit,
        timeseriesPointLimit, topErrorLimit, sender, recipient, subject, ()) =>
      { pageSize, maxIterations, printInvalidDetail, printAllValues, dashboardEntryLimit,
        timeseriesPointLimit, topErrorLimit, sender, recipient, subject })
    (fun c =>
      (c.pageSize, c.maxIterations, c.printInvalidDetail, c.printAllValues, c.dashboardEntryLimit,
        c.timeseriesPointLimit, c.topErrorLimit, c.sender, c.recipient, c.subject, ()))

end NetAudit
