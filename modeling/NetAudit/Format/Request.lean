import NetAudit.Format.Result
import NetAudit.Request

/-!
# Requests and responses as documents

A response is an object with a status and, unless it is a mere acknowledgement, a report. On reading
the two may stand in either order.
-/

namespace NetAudit

open Json

/-- The presentations by their names. -/
def Presentation.named : List (String × Presentation) :=
  [("report", .report), ("notification", .notification)]

/-- The name of a presentation. -/
def Presentation.name : Presentation → String
  | .report => "report"
  | .notification => "notification"

def Presentation.codec : Codec Presentation where
  encode p := .string p.name
  decode := Codec.decodeVariant Presentation.named

/-- The metrics by their names. -/
def Metric.named : List (String × Metric) :=
  [(Metric.records.name, .records), (Metric.errors.name, .errors)]

def Metric.codec : Codec Metric where
  encode m := .string m.name
  decode := Codec.decodeVariant Metric.named

def RunRequest.codec : Codec RunRequest :=
  Codec.record "RunRequest" [
      Field.nullable "start_time" Codec.string,
      Field.nullable "end_time" Codec.string,
      Field.withDefault "iterations" Codec.iterations 1,
      Field.nullable "record_limit" Codec.size,
      Field.withDefault "presentation" Presentation.codec .report,
      Field.withDefault "is_background_worker" Codec.bool false]
    (fun (start, stop, iterations, limit, presentation, isWorker, ()) =>
      ⟨start, stop, iterations, limit, presentation, isWorker⟩)
    (fun q => (q.start, q.stop, q.iterations, q.limit, q.presentation, q.isWorker, ()))

/-- What a response is about. -/
inductive ResponseStatus where
  | acknowledged
  | report
  | notified
deriving DecidableEq, Repr

/-- The statuses by their names. -/
def ResponseStatus.named : List (String × ResponseStatus) :=
  [("acknowledged", .acknowledged), ("report", .report), ("notified", .notified)]

namespace RunResponse

/-- How messages call a response. -/
def wanted : String := "adjacently tagged enum RunResponse"

/-- The response with a status and the document of its report. -/
def ofContent (s : ResponseStatus) (d : Document) : Decoded RunResponse :=
  match s with
  | .acknowledged =>
    match d with
    | .null => .ok acknowledged
    | d => d.mismatch "unit variant RunResponse::Acknowledged"
  | .report => (Report.codec.decode d).map report
  | .notified => (Report.codec.decode d).map notified

/-- The response with a status and no report. -/
def ofStatus : ResponseStatus → Decoded RunResponse
  | .acknowledged => .ok acknowledged
  | .report | .notified => .error (.data (.missingField "report"))

/-- The status in a document. -/
def decodeStatus (d : Document) : Decoded ResponseStatus :=
  Codec.decodeVariant ResponseStatus.named d

/-- The next field of a response, and the fields after it. Other fields are passed over. -/
def nextField (stop : Option Stop) :
    List (Literal × Document) → Decoded (Option (String × Document × List (Literal × Document)))
  | [] => do endWanted stop; return none
  | (k, d) :: rest => do
    let name ← k.decode
    if name = "status" ∨ name = "report" then return some (name, d, rest)
    d.skip
    nextField stop rest

/-- No further field of a response may follow. -/
def noField (stop : Option Stop) (fields : List (Literal × Document)) : Decoded Unit := do
  match ← nextField stop fields with
  | none => return ()
  | some (name, _, _) => throw (.data (.duplicateField name))

/-- A response from the fields of an object. -/
def ofFields (stop : Option Stop) (fields : List (Literal × Document)) : Decoded RunResponse := do
  match ← nextField stop fields with
  | none => throw (.data (.missingField "status"))
  | some ("status", d, rest) =>
    let status ← decodeStatus d
    match ← nextField stop rest with
    | none => ofStatus status
    | some ("status", _, _) => throw (.data (.duplicateField "status"))
    | some (_, d, rest) =>
      let response ← ofContent status d
      noField stop rest
      return response
  | some (_, d, rest) =>
    d.survey Document.surveyDepth
    match ← nextField stop rest with
    | none => throw (.data (.missingField "status"))
    | some ("status", s, rest) =>
      let status ← decodeStatus s
      let response ← (ofContent status d).mapError .ofKept
      noField stop rest
      return response
    | some (_, _, _) => throw (.data (.duplicateField "report"))

/-- A response from the items of an array: the status and the report. -/
def ofItems (stop : Option Stop) : List Document → Decoded RunResponse
  | [] => do
    endWanted stop
    throw (.data (.wrongLength 0 wanted))
  | s :: rest => do
    let status ← Codec.decodeVariantName ResponseStatus.named s
    match rest with
    | [] =>
      endWanted stop
      throw (.data (.wrongLength 1 wanted))
    | d :: more =>
      let response ← ofContent status d
      Row.ofItemsEnd 2 more stop
      return response

/-- The document of a response. -/
def encode : RunResponse → Json
  | acknowledged => .object [("status", .string "acknowledged")]
  | report r => .object [("status", .string "report"), ("report", Report.codec.encode r)]
  | notified r => .object [("status", .string "notified"), ("report", Report.codec.encode r)]

def codec : Codec RunResponse where
  encode := encode
  decode
    | .object fields stop => ofFields stop fields
    | .array items stop => ofItems stop items
    | d => d.mismatch wanted

end RunResponse

end NetAudit
