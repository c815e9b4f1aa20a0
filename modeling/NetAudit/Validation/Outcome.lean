import NetAudit.Measurement.Values

/-!
# Outcomes and checklists

Scoring a measurement gives an `Outcome`: the error tags in the order in which they were raised, and
remarks for the log. Most kinds are scored by a `Checklist` of fields that have to be there and of
rules, each of which raises its tag at most once. A rule that meets a missing value says nothing,
since the missing value has a tag of its own; a value that cannot be read raises the tag.
-/

namespace NetAudit

/-- What the log says about a rule that could not be applied, or a hop without a time. -/
inductive Remark where
  | skipped (rule field : String)
  | malformed (rule field : String)
  | hopWithoutRtt (hop : Nat)
deriving DecidableEq, Repr

/-- The error tags of a measurement, and remarks on how they came about. A measurement is valid
until a tag is raised. -/
structure Outcome where
  isValid : Bool
  errors : List String
  remarks : List Remark
  isValid_eq : isValid = errors.isEmpty
deriving DecidableEq, Repr

/-- The tag of a required field that is missing. -/
def missingFieldTag (name : String) : String := "missing_field_" ++ name

namespace Outcome

/-- No error so far. -/
def clean : Outcome := ⟨true, [], [], rfl⟩

/-- A tag was raised. -/
def contains (o : Outcome) (tag : String) : Bool := o.errors.contains tag

/-- Raise a tag. -/
def fail (o : Outcome) (tag : String) : Outcome where
  isValid := false
  errors := o.errors ++ [tag]
  remarks := o.remarks
  isValid_eq := by simp

/-- Make a remark. -/
def remark (o : Outcome) (r : Remark) : Outcome := { o with remarks := o.remarks ++ [r] }

/-- One outcome after another. -/
def append (o p : Outcome) : Outcome where
  isValid := o.isValid && p.isValid
  errors := o.errors ++ p.errors
  remarks := o.remarks ++ p.remarks
  isValid_eq := by
    rw [o.isValid_eq, p.isValid_eq]
    cases o.errors <;> rfl

instance : Append Outcome := ⟨append⟩

/-- Raise the tag of every field that is not there. -/
def require (o : Outcome) (vs : Values) (names : List String) : Outcome :=
  names.foldl (fun o n => if vs.contains n then o else o.fail (missingFieldTag n)) o

/-- Raise the tag of a rule that does not hold or that met a value it cannot read. -/
def check (o : Outcome) (tag : String) (holds : Except FieldFault Bool) : Outcome :=
  match holds with
  | .ok true => o
  | .ok false => o.fail tag
  | .error (.malformed field) => (o.remark (.malformed tag field)).fail tag
  | .error (.missing field) => o.remark (.skipped tag field)

end Outcome

/-- A rule on values: its tag, and whether it holds. -/
structure Rule where
  tag : String
  holds : Values → Except FieldFault Bool

/-- Fields that have to be there, and rules, in their order. -/
structure Checklist where
  required : List String
  rules : List Rule

/-- Go through a checklist. -/
def Checklist.score (l : Checklist) (vs : Values) : Outcome :=
  l.rules.foldl (fun o r => o.check r.tag (r.holds vs)) (Outcome.clean.require vs l.required)

/-! ### The tags of rules -/

namespace Tag

def addressNotValid : String := "address_not_valid"
def meanRttInvalid : String := "mean_rtt_value_invalid"
def rttRangeInvalid : String := "rtt_range_invalid"
def packetLossInvalid : String := "pkt_loss_invalid"
def stddevRttInvalid : String := "stddev_rtt_invalid"
def maxRttTooLarge : String := "max_rtt_too_large"
def packetsSentInvalid : String := "packets_sent_invalid"
def lookupDurationInvalid : String := "lookup_duration_invalid"
def nonHttpUrl : String := "non_http_url"
def httpCodeInvalid : String := "http_code_invalid"
def zeroLengthBody : String := "zero_length_body"
def headerLengthMismatch : String := "header_length_mismatch"
def fetchTimeInvalid : String := "fetch_time_invalid"
def missingHop : String := "missing_hop"
def tooManyHops : String := "too_many_hops"
def latencyNotValid : String := "latency_not_valid"

end Tag

end NetAudit
