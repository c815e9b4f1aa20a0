import NetAudit.Validation.Outcome

/-!
# Pings and name lookups

Both are scored by a checklist. Times are in milliseconds.
-/

namespace NetAudit

open Number (Binary64)

/-- A number lies between two others, both counted. -/
def between (low high x : Binary64) : Bool := low ≤ x && x ≤ high

namespace Ping

/-- The least, the mean and the greatest round-trip time are in order. They are read in this order,
and the first that cannot be read decides. -/
def rttOrdered (vs : Values) : Except FieldFault Bool := do
  let min ← vs.number "min_rtt_ms"
  let mean ← vs.number "mean_rtt_ms"
  let max ← vs.number "max_rtt_ms"
  return min ≤ mean && mean ≤ max

/-- How a ping is scored. -/
def checklist : Checklist where
  required :=
    ["mean_rtt_ms", "min_rtt_ms", "max_rtt_ms", "packet_loss", "stddev_rtt_ms", "packets_sent",
      "target_ip"]
  rules := [
    ⟨Tag.addressNotValid, fun vs => (vs.address "target_ip").map fun _ => true⟩,
    ⟨Tag.meanRttInvalid, fun vs => (vs.number "mean_rtt_ms").map (between 0 3000)⟩,
    ⟨Tag.rttRangeInvalid, rttOrdered⟩,
    ⟨Tag.packetLossInvalid, fun vs => (vs.number "packet_loss").map (between 0 1)⟩,
    ⟨Tag.stddevRttInvalid, fun vs => (vs.number "stddev_rtt_ms").map (0 ≤ ·)⟩,
    ⟨Tag.maxRttTooLarge, fun vs => (vs.number "max_rtt_ms").map (· ≤ 3000)⟩,
    ⟨Tag.packetsSentInvalid, fun vs => (vs.number "packets_sent").map (0 < ·)⟩]

end Ping

namespace DnsLookup

/-- How a name lookup is scored. -/
def checklist : Checklist where
  required := ["address", "real_hostname", "time_ms"]
  rules := [
    ⟨Tag.addressNotValid, fun vs => (vs.address "address").map fun _ => true⟩,
    ⟨Tag.lookupDurationInvalid, fun vs => (vs.number "time_ms").map (between 0 15000)⟩]

end DnsLookup

end NetAudit
