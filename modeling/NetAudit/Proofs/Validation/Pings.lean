import NetAudit.Proofs.Answers
import NetAudit.Proofs.Validation.Checklists
import NetAudit.Validation.Validator

/-!
# How pings and name lookups are judged

A ping is in order if it names an address and six figures that fit each other, a name lookup if it
names an address, a host and a time that is not too long. Any other values get the tags of what is
missing and of what is wrong, and each rule looks at its own values only
(`Validator.judges_pings_and_lookups`).
-/

namespace NetAudit

open Number (Binary64)

/-! ## Pings

The six figures of a ping are collected in `Ping.Figures`, so that what has to fit can be said of
numbers and not of texts. -/

namespace Ping

/-- The tags of rules for pings, and the names of the values that each rule reads. -/
def inputs : List (String × List String) := [
  (Tag.addressNotValid, ["target_ip"]),
  (Tag.meanRttInvalid, ["mean_rtt_ms"]),
  (Tag.rttRangeInvalid, ["min_rtt_ms", "mean_rtt_ms", "max_rtt_ms"]),
  (Tag.packetLossInvalid, ["packet_loss"]),
  (Tag.stddevRttInvalid, ["stddev_rtt_ms"]),
  (Tag.maxRttTooLarge, ["max_rtt_ms"]),
  (Tag.packetsSentInvalid, ["packets_sent"])]

/-- What a ping is about. -/
structure Figures where
  target : Address
  min : Binary64
  mean : Binary64
  max : Binary64
  loss : Binary64
  stddev : Binary64
  sent : Binary64

/-- All figures are there to be read in the values. -/
structure Figures.GivenBy (f : Figures) (vs : Values) : Prop where
  target : vs.Says parseAddress? "target_ip" f.target
  min : vs.Says parseNumber? "min_rtt_ms" f.min
  mean : vs.Says parseNumber? "mean_rtt_ms" f.mean
  max : vs.Says parseNumber? "max_rtt_ms" f.max
  loss : vs.Says parseNumber? "packet_loss" f.loss
  stddev : vs.Says parseNumber? "stddev_rtt_ms" f.stddev
  sent : vs.Says parseNumber? "packets_sent" f.sent

/-- The figures are within their bounds and fit each other. -/
structure Figures.Fit (f : Figures) : Prop where
  mean_nonneg : 0 ≤ f.mean
  mean_le : f.mean ≤ 3000
  min_le_mean : f.min ≤ f.mean
  mean_le_max : f.mean ≤ f.max
  loss_nonneg : 0 ≤ f.loss
  loss_le : f.loss ≤ 1
  stddev_nonneg : 0 ≤ f.stddev
  max_le : f.max ≤ 3000
  sent_pos : 0 < f.sent

/-- The values are those of a ping with figures that fit. -/
def InOrder (vs : Values) : Prop := ∃ f : Figures, f.GivenBy vs ∧ f.Fit

variable {vs ws : Values}

theorem rttOrdered_congr (h : vs.AgreesOn ["min_rtt_ms", "mean_rtt_ms", "max_rtt_ms"] ws) :
    rttOrdered vs = rttOrdered ws := by
  unfold rttOrdered Values.number
  rw [Values.readAs_congr (h "min_rtt_ms" (by simp)),
    Values.readAs_congr (h "mean_rtt_ms" (by simp)), Values.readAs_congr (h "max_rtt_ms" (by simp))]

theorem rttOrdered_eq_ok_iff :
    rttOrdered vs = .ok true ↔ ∃ min mean max, vs.Says parseNumber? "min_rtt_ms" min ∧
      vs.Says parseNumber? "mean_rtt_ms" mean ∧ vs.Says parseNumber? "max_rtt_ms" max ∧
      min ≤ mean ∧ mean ≤ max := by
  simp only [rttOrdered, Values.number, bind_eq_ok_iff, pure_eq_ok_iff, Values.readAs_eq_ok_iff,
    Bool.and_eq_true, decide_eq_true_eq]
  constructor
  · rintro ⟨min, hmin, mean, hmean, max, hmax, hle⟩
    exact ⟨min, mean, max, hmin, hmean, hmax, hle⟩
  · rintro ⟨min, mean, max, hmin, hmean, hmax, hle⟩
    exact ⟨min, hmin, mean, hmean, max, hmax, hle⟩

theorem missesOnly_rttOrdered :
    Rule.MissesOnly ⟨Tag.rttRangeInvalid, rttOrdered⟩ checklist.required := by
  intro vs n h
  change rttOrdered vs = _ at h
  simp only [rttOrdered, Values.number, bind_eq_error_iff, Values.readAs_eq_missing_iff] at h
  rcases h with ⟨rfl, habsent⟩ | ⟨min, -, ⟨rfl, habsent⟩ | ⟨mean, -, ⟨rfl, habsent⟩ | ⟨max, -, h⟩⟩⟩
  · exact ⟨by decide, habsent⟩
  · exact ⟨by decide, habsent⟩
  · exact ⟨by decide, habsent⟩
  · cases h

theorem missesOnly_rules : ∀ r ∈ checklist.rules, r.MissesOnly checklist.required := by
  simp only [checklist, List.forall_mem_cons]
  exact ⟨Rule.missesOnly_one (by decide), Rule.missesOnly_one (by decide), missesOnly_rttOrdered,
    Rule.missesOnly_one (by decide), Rule.missesOnly_one (by decide),
    Rule.missesOnly_one (by decide), Rule.missesOnly_one (by decide), by simp⟩

theorem readsListed : Rule.ReadsListed checklist.rules inputs :=
  .cons ⟨rfl, Rule.readsOnly_one⟩ <| .cons ⟨rfl, Rule.readsOnly_one⟩ <|
    .cons ⟨rfl, rttOrdered_congr⟩ <| .cons ⟨rfl, Rule.readsOnly_one⟩ <|
    .cons ⟨rfl, Rule.readsOnly_one⟩ <| .cons ⟨rfl, Rule.readsOnly_one⟩ <|
    .cons ⟨rfl, Rule.readsOnly_one⟩ .nil

theorem Figures.GivenBy.contains {f : Figures} (h : f.GivenBy vs) :
    ∀ n ∈ checklist.required, vs.contains n = true := by
  simp only [checklist, List.forall_mem_cons]
  exact ⟨h.mean.contains, h.min.contains, h.max.contains, h.loss.contains, h.stddev.contains,
    h.sent.contains, h.target.contains, by simp⟩

/-- **All rules hold** for figures that fit, and only for these. -/
theorem rules_hold_iff : (∀ r ∈ checklist.rules, r.holds vs = .ok true) ↔ InOrder vs := by
  simp only [checklist, List.forall_mem_cons, Values.number, Values.address,
    Rule.map_readAs_eq_ok_iff, rttOrdered_eq_ok_iff, between_iff, decide_eq_true_eq]
  constructor
  · rintro ⟨⟨target, htarget, -⟩, ⟨mean, hmean, hnonneg, hle⟩,
      ⟨min, mean', max, hmin, hmean', hmax, hlow, hhigh⟩, ⟨loss, hloss, hzero, hone⟩,
      ⟨stddev, hstddev, hspread⟩, ⟨max', hmax', hbound⟩, ⟨sent, hsent, hpos⟩, -⟩
    -- The mean and the greatest time are read by two rules each.
    obtain rfl := hmean'.eq hmean
    obtain rfl := hmax'.eq hmax
    exact ⟨⟨target, min, mean', max', loss, stddev, sent⟩,
      ⟨htarget, hmin, hmean, hmax, hloss, hstddev, hsent⟩,
      ⟨hnonneg, hle, hlow, hhigh, hzero, hone, hspread, hbound, hpos⟩⟩
  · rintro ⟨f, hgiven, hfit⟩
    exact ⟨⟨f.target, hgiven.target, trivial⟩,
      ⟨f.mean, hgiven.mean, hfit.mean_nonneg, hfit.mean_le⟩,
      ⟨f.min, f.mean, f.max, hgiven.min, hgiven.mean, hgiven.max, hfit.min_le_mean,
        hfit.mean_le_max⟩,
      ⟨f.loss, hgiven.loss, hfit.loss_nonneg, hfit.loss_le⟩,
      ⟨f.stddev, hgiven.stddev, hfit.stddev_nonneg⟩, ⟨f.max, hgiven.max, hfit.max_le⟩,
      ⟨f.sent, hgiven.sent, hfit.sent_pos⟩, by simp⟩

theorem judges (vs : Values) : Judges checklist.required inputs InOrder checklist.score vs := by
  apply Checklist.judges (by decide) readsListed missesOnly_rules
  intro vs
  rw [rules_hold_iff]
  constructor
  · rintro ⟨f, hgiven, hfit⟩
    exact ⟨hgiven.contains, f, hgiven, hfit⟩
  · rintro ⟨-, horder⟩
    exact horder

end Ping

/-! ## Name lookups

A lookup has two rules with one value each. -/

namespace DnsLookup

/-- The tags of rules for name lookups, and the names of the values that each rule reads. -/
def inputs : List (String × List String) := [
  (Tag.addressNotValid, ["address"]),
  (Tag.lookupDurationInvalid, ["time_ms"])]

/-- The values are those of a lookup that names an address and a host and took a time within its
bounds. The host may be named by any text. -/
structure InOrder (vs : Values) : Prop where
  address : ∃ a, vs.Says parseAddress? "address" a
  host : vs.contains "real_hostname" = true
  time : ∃ ms, vs.Says parseNumber? "time_ms" ms ∧ 0 ≤ ms ∧ ms ≤ 15000

theorem judges (vs : Values) : Judges checklist.required inputs InOrder checklist.score vs := by
  apply Checklist.judges (by decide)
  case hreads =>
    exact .cons ⟨rfl, Rule.readsOnly_one⟩ <| .cons ⟨rfl, Rule.readsOnly_one⟩ .nil
  case hmisses =>
    simp only [checklist, List.forall_mem_cons]
    exact ⟨Rule.missesOnly_one (by decide), Rule.missesOnly_one (by decide), by simp⟩
  case horder =>
    intro vs
    simp only [checklist, List.forall_mem_cons, Values.number, Values.address,
      Rule.map_readAs_eq_ok_iff, between_iff]
    constructor
    · rintro ⟨⟨a, haddress⟩, hhost, ms, htime, hle⟩
      exact ⟨⟨haddress.contains, hhost, htime.contains, by simp⟩, ⟨a, haddress, trivial⟩,
        ⟨ms, htime, hle⟩, by simp⟩
    · rintro ⟨⟨-, hhost, -⟩, ⟨a, haddress, -⟩, ⟨ms, htime, hle⟩, -⟩
      exact ⟨⟨a, haddress⟩, hhost, ms, htime, hle⟩

end DnsLookup

/-- **Pings and name lookups are judged** by their figures, each rule by its own. -/
theorem Validator.judges_pings_and_lookups (vs : Values) :
    Judges Ping.checklist.required Ping.inputs Ping.InOrder (fun vs => (ping vs).score) vs ∧
      Judges DnsLookup.checklist.required DnsLookup.inputs DnsLookup.InOrder
        (fun vs => (dnsLookup vs).score) vs :=
  ⟨Ping.judges vs, DnsLookup.judges vs⟩

/-- There are pings in order, and the address may stand in quotes. -/
example : (Validator.ping (OrderedMap.ofList [("mean_rtt_ms", "50"), ("min_rtt_ms", "40"),
    ("max_rtt_ms", "60"), ("packet_loss", "0.1"), ("stddev_rtt_ms", "5"), ("packets_sent", "10"),
    ("target_ip", "\"8.8.8.8\"")])).score.errors = [] := by
  decide +kernel

end NetAudit
