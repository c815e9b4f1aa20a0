import NetAudit.Validation.Ping

/-!
# Fetches of web pages

A fetch has a status code and an address, and, if the code is 200, a body and headers whose lengths
the device has counted. The address that was asked for stands among the parameters of the
measurement and takes the place of an address among the values.
-/

namespace NetAudit.Http

open Number (Binary64)

/-- The values of a fetch, with the address that was asked for. -/
def working (parameters values : Values) : Values :=
  match parameters.find? "url" with
  | some url => values.insert "url" url
  | none => values

/-- What is asked of every fetch. -/
def checklist : Checklist where
  required := ["code", "url"]
  rules := [
    ⟨Tag.nonHttpUrl, fun vs => (vs.text "url").map fun url => (Text.unquote url).startsWith "http"⟩,
    ⟨Tag.httpCodeInvalid, fun vs => (vs.number "code").map fun c => 100 ≤ c && c < 600⟩]

/-- The fields of a fetch that succeeded. -/
def successFields : List String := ["body", "body_len", "headers", "headers_len", "time_ms"]

/-- The body has a character. -/
def bodyNotEmpty (vs : Values) : Except FieldFault Bool :=
  (vs.text "body").map fun body => Text.unquote body ≠ ""

/-- The body was counted to have a length. -/
def bodyCounted (vs : Values) : Except FieldFault Bool := (vs.number "body_len").map (0 < ·)

/-- The headers have as many characters as were counted. -/
def headersCounted (vs : Values) : Except FieldFault Bool := do
  let headers ← vs.text "headers"
  let declared ← vs.number "headers_len"
  return declared.same (.ofNat (Text.unquote headers).length)

/-- What is asked of a fetch that succeeded. An empty body is reported once, whether it shows in the
body or in its length. -/
def scoreSuccess (vs : Values) (o : Outcome) : Outcome :=
  let o := (o.require vs successFields).check Tag.zeroLengthBody (bodyNotEmpty vs)
  let o := if o.contains Tag.zeroLengthBody then o else o.check Tag.zeroLengthBody (bodyCounted vs)
  (o.check Tag.headerLengthMismatch (headersCounted vs)).check Tag.fetchTimeInvalid
    ((vs.number "time_ms").map (between 0 100000))

/-- The status code is 200. -/
def succeeded (vs : Values) : Bool :=
  match vs.number "code" with
  | .ok code => code.same 200
  | .error _ => false

/-- How a fetch is scored. -/
def score (vs : Values) : Outcome :=
  if succeeded vs then scoreSuccess vs (checklist.score vs) else checklist.score vs

end NetAudit.Http
