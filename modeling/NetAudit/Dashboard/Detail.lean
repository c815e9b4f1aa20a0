import NetAudit.Run.Attempt

/-!
# One measurement in detail

A stored measurement is scored once more and shown with its values.
-/

namespace NetAudit

/-- A measurement as it is shown. -/
structure ErrorDetail where
  /-- The day of the measurement in digits. -/
  day : String
  kind : Kind
  success : Bool
  outcome : Outcome
  values : String
deriving DecidableEq

namespace ErrorDetail

variable {σ : Type}

/-- The detail of a measurement with its validator. -/
def ofMeasurement (m : Measurement) (v : Validator) : ErrorDetail :=
  ⟨m.timestamp.date.compactText, m.kind, m.success, v.score, v.detail⟩

/-- The context of what the log says about a measurement that is shown. -/
def context (id : MeasurementId) : LogContext := { run := "dashboard", measurement := some id.text }

/-- The detail of the measurement under a name. -/
def ofStore (store : Store σ) (id : MeasurementId) : Attempt σ ErrorDetail := do
  match ← Attempt.read (store.measurement id) with
  | none => Attempt.fail (.query (.notFound id.text))
  | some m =>
    match Validator.of? m with
    | .error e => Attempt.fail (.unsupported e)
    | .ok v =>
      Attempt.of (Action.logAll (v.score.log (context id)))
      return ofMeasurement m v

end ErrorDetail

end NetAudit
