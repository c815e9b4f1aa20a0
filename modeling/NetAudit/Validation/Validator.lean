import NetAudit.Validation.Http
import NetAudit.Validation.Traceroute

/-!
# Validators

Five kinds of measurements have a validator. A `Validator` holds the values that are scored and
shown; a burst of packets is always in order, and for the other kinds nothing can be said.
-/

namespace NetAudit

/-- There is no validator for measurements of this kind. -/
structure UnsupportedKind where
  kind : Kind
deriving DecidableEq

/-- The wording of the refusal. -/
def UnsupportedKind.message (e : UnsupportedKind) : String :=
  "unsupported measurement type: " ++ e.kind.tag

/-- A measurement of a kind that can be scored, as the values that are scored. -/
inductive Validator where
  | ping (values : Values)
  | dnsLookup (values : Values)
  | traceroute (values : Values)
  | http (values : Values)
  | udpBurst (values : Values)
deriving DecidableEq

namespace Validator

/-- The validator for a measurement. -/
def of? (m : Measurement) : Except UnsupportedKind Validator :=
  match m.kind with
  | .ping => .ok (ping m.values)
  | .dnsLookup => .ok (dnsLookup m.values)
  | .traceroute => .ok (traceroute m.values)
  | .http => .ok (http (Http.working m.parameters m.values))
  | .udpBurst => .ok (udpBurst m.values)
  | kind => .error ⟨kind⟩

/-- The values that are scored and shown. -/
def values : Validator → Values
  | ping vs | dnsLookup vs | traceroute vs | http vs | udpBurst vs => vs

/-- The score. -/
def score : Validator → Outcome
  | ping vs => Ping.checklist.score vs
  | dnsLookup vs => DnsLookup.checklist.score vs
  | traceroute vs => (Route.ofValues vs).score
  | http vs => Http.score vs
  | udpBurst _ => .clean

/-- The values as a text. -/
def detail (v : Validator) : String := v.values.detail

end Validator

end NetAudit
