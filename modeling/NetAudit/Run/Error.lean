import NetAudit.Store.Basic
import NetAudit.Validation.Validator

/-!
# Why a request fails

Malformed values and dangling references are no failures: they become error tags and records that
are passed over. What is left is a request that makes no sense, or a store, queue or notifier that
does not do its part.
-/

namespace NetAudit

/-- What could not be stored. -/
inductive Written where
  | summary
  | entry
deriving DecidableEq, Repr

/-- The name of what could not be stored. -/
def Written.name : Written → String
  | summary => "summary"
  | entry => "entry"

/-- Why a request fails. -/
inductive RunError where
  | unsupported (e : UnsupportedKind)
  | window (e : WindowError)
  | tooManyIterations (requested max : Nat)
  | query (e : StoreError)
  | persistence (what : Written) (e : StoreError)
  | notification (reason : String)
deriving DecidableEq

namespace RunError

/-- The wording of a failure. -/
def message : RunError → String
  | unsupported e => e.message
  | window e => e.message
  | tooManyIterations requested max =>
    toString requested ++ " iterations requested, at most " ++ toString max ++ " allowed"
  | query e => "measurement query failed: " ++ e.message
  | persistence what e => "failed to persist " ++ what.name ++ ": " ++ e.message
  | notification reason => "notification failed: " ++ reason

/-- What stands behind a failure. -/
def cause : RunError → Option String
  | window (.badTimestamp _ fault) => some fault.message
  | query e | persistence _ e => some e.message
  | unsupported _ | window _ | tooManyIterations _ _ | notification _ => none

end RunError

end NetAudit
