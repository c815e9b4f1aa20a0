import NetAudit.Dashboard.Buckets
import NetAudit.Dashboard.Detail
import NetAudit.Dashboard.Timeseries
import NetAudit.Dashboard.TopErrors
import NetAudit.Format.Result

/-!
# Dashboards as documents

These are only written, never read.
-/

namespace NetAudit

open Json

def Outcome.toJson (o : Outcome) : Json :=
  .object [("valid", .bool o.isValid), ("error_types", .array (o.errors.map .string))]

def Link.toJson (l : Link) : Json :=
  .object [("measurement_id", .string l.measurement.text), ("device_id", .string l.device.text)]

def Cell.toJson (c : Cell) : Json :=
  .object [("count", .ofNat c.count), ("details", .array (c.links.map Link.toJson))]

def Buckets.toJson (b : Buckets) : Json :=
  .array (b.toList.map fun e => .object [
    ("window_start", Codec.instant.encode e.1),
    ("types", .object (e.2.toList.map fun c => (c.1, c.2.toJson)))])

def ErrorCount.toJson (e : ErrorCount) : Json :=
  .object [("error", .string e.error), ("count", .ofNat e.count)]

def TimeseriesRow.toJson (r : TimeseriesRow) : Json :=
  .object [("timestamp_ms", .number r.millis), ("values", .array (r.values.map .ofNat))]

def ErrorDetail.toJson (d : ErrorDetail) : Json :=
  .object [
    ("hash", .string d.day),
    ("type", .string d.kind.tag),
    ("success", .bool d.success),
    ("validation_results", d.outcome.toJson),
    ("details", .string d.values)]

end NetAudit
