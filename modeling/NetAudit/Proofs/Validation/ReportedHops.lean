import NetAudit.Proofs.Validation.HopKeys
import NetAudit.Proofs.Validation.Routes

/-!
# What a route in order says of the values that were reported

A route that is in order has no bad address and no bad time, but not every value becomes part of the
route: an index may have more than 32 bits, two keys may name the same hop by numerals with and
without zeros in front, and the time to a hop without an address is never looked at. What stands
under all other keys can be relied on (`Validator.passes_reliable`); the three exceptions are real
(`Validator.passes_unreliable`).
-/

namespace NetAudit

open Number HopKey

namespace Route

variable {vs : Values} {numeral field value : String}

/-! ## The keys that count

Of the keys that name one hop, some are passed over. The plainest one counts for an address, and the
longest one for a time. -/

/-- No key with the same field has a shorter numeral of the same index. -/
def IsPlainest (vs : Values) (numeral field : String) : Prop :=
  ∀ other, IsNumeral other → valueOf other = valueOf numeral →
    vs.contains (addressText other field) = true → numeral.length ≤ other.length

/-- No key for a time has a longer numeral of the same index. -/
def IsLongest (vs : Values) (numeral : String) : Prop :=
  ∀ other, IsNumeral other → valueOf other = valueOf numeral →
    vs.contains (rttText other) = true → other.length ≤ numeral.length

theorem address?_of_isPlainest (hnumeral : IsNumeral numeral) (hfield : IsField field)
    (hindex : valueOf numeral < indexBound)
    (hvalue : vs.find? (addressText numeral field) = some value)
    (hplain : IsPlainest vs numeral field) :
    (ofValues vs).address? (valueOf numeral) field = some value := by
  refine address?_ofValues_eq_some_iff.2 ⟨_, hvalue, .address hnumeral hindex hfield, ?_⟩
  intro key hkey hspells
  obtain ⟨other, rfl, hother, heq, -⟩ := spells_address_iff.1 hspells
  rcases (hplain other hother heq hkey).eq_or_lt with hlength | hlt
  · rw [hother.eq_of_length_eq hnumeral heq hlength.symm]
  · exact (addressText_lt hother hnumeral heq hlt).le

theorem rtt_of_isLongest (hnumeral : IsNumeral numeral) (hindex : valueOf numeral < indexBound)
    (hvalue : vs.find? (rttText numeral) = some value) (hlong : IsLongest vs numeral) :
    (ofValues vs).rtts.find? (valueOf numeral) = some value := by
  refine rtt_ofValues_eq_some_iff.2 ⟨_, hvalue, .rtt hnumeral hindex, ?_⟩
  intro key hkey hspells
  obtain ⟨other, rfl, hother, heq, -⟩ := spells_rtt_iff.1 hspells
  rcases (hlong other hother heq hkey).eq_or_lt with hlength | hlt
  · rw [hother.eq_of_length_eq hnumeral heq hlength]
  · exact (rttText_lt hnumeral hother heq.symm hlt).le

theorem contains_of_address (hnumeral : IsNumeral numeral) (hfield : IsField field)
    (hindex : valueOf numeral < indexBound)
    (hkey : vs.contains (addressText numeral field) = true) :
    (ofValues vs).hops.contains (valueOf numeral) = true := by
  have hfound := isSome_address?_ofValues hkey (.address hnumeral hindex hfield)
  obtain ⟨value, hvalue⟩ := Option.isSome_iff_exists.1 hfound
  obtain ⟨hop, hhop, -⟩ := Option.bind_eq_some_iff.1 hvalue
  exact Option.isSome_iff_exists.2 ⟨hop, hhop⟩

/-! ## What was reported

`Route.Reliable` says what a route in order lets one conclude on the values that were reported. -/

/-- All keys that look like keys of hops have values that are in order. -/
structure NoBadValue (vs : Values) : Prop where
  address : ∀ numeral field value, IsNumeral numeral → IsField field →
    vs.find? (addressText numeral field) = some value →
    valueOf numeral ≤ 45 ∧ ∃ a, parseAddress? value = some a
  time : ∀ numeral value, IsNumeral numeral → vs.find? (rttText numeral) = some value → IsTime value

/-- Values are in order wherever they become part of the route. -/
structure Reliable (vs : Values) : Prop where
  index_le : ∀ numeral field, IsNumeral numeral → IsField field →
    vs.contains (addressText numeral field) = true →
    valueOf numeral < indexBound → valueOf numeral ≤ 45
  address : ∀ numeral field value, IsNumeral numeral → IsField field →
    vs.find? (addressText numeral field) = some value →
    valueOf numeral < indexBound → IsPlainest vs numeral field → ∃ a, parseAddress? value = some a
  /-- A time counts if the hop has an address under some key. -/
  time : ∀ numeral value, IsNumeral numeral → vs.find? (rttText numeral) = some value →
    (∃ other field, IsNumeral other ∧ IsField field ∧
      vs.contains (addressText other field) = true ∧ valueOf other = valueOf numeral ∧
      valueOf other < indexBound) →
    IsLongest vs numeral → IsTime value

theorem InOrder.reliable (h : (ofValues vs).InOrder) : Reliable vs where
  index_le numeral field hnumeral hfield hkey hindex := by
    obtain ⟨n, hn, hkeys⟩ := h.indices
    have hmem := (OrderedMap.mem_keys_iff _ _).2 (contains_of_address hnumeral hfield hindex hkey)
    rw [hkeys, List.mem_range] at hmem
    omega
  address numeral field value hnumeral hfield hvalue hindex hplain := by
    have hfound := address?_of_isPlainest hnumeral hfield hindex hvalue hplain
    obtain ⟨hop, hhop, haddress⟩ := Option.bind_eq_some_iff.1 hfound
    exact h.addresses _ hop hhop field value haddress
  time numeral value hnumeral hvalue := by
    rintro ⟨other, field, hother, hfield, hkey, heq, hindex⟩ hlong
    obtain ⟨rtt, hrtt, htime⟩ := h.times _ (contains_of_address hother hfield hindex hkey)
    rw [heq] at hrtt hindex
    cases hrtt.symm.trans (rtt_of_isLongest hnumeral hindex hvalue hlong)
    exact htime

end Route

/-- **A route that passes** vouches for the values that became part of it. -/
theorem Validator.passes_reliable {vs : Values} (h : (traceroute vs).score.isValid = true) :
    Route.Reliable vs :=
  (Route.errors_eq_nil_iff.1 ((Outcome.isValid_iff _).1 h)).reliable

/-- Two hops, the first of which has an address and a time that do not count. -/
def Values.twoHops : Values := OrderedMap.ofList [
  ("hop_00_addr_1", "*"), ("hop_0_addr_1", "\"10.0.0.1\""), ("hop_01_addr__rtt", "2001:db8::1"),
  ("hop_00_rtt", "0.5"), ("hop_0_rtt", "*"), ("hop_1_rtt", " 3e3 "), ("hop_2_rtt", "-1")]

theorem Validator.passes_reliable_ofTwoHops :
    (traceroute .twoHops).score.isValid = true ∧ Route.Reliable .twoHops := by
  have hvalid : (traceroute .twoHops).score.isValid = true := by decide +kernel
  exact ⟨hvalid, passes_reliable hvalid⟩

/-- A hop whose index has more than 32 bits. -/
def Values.beyondIndices : Values := OrderedMap.ofList [("hop_4294967296_addr_1", "8.8.8.8")]

/-- A bad address behind a good one, which stands under a plainer key. -/
def Values.shadowedAddress : Values := OrderedMap.ofList [
  ("hop_00_addr_1", "*"), ("hop_0_addr_1", "8.8.8.8"), ("hop_0_rtt", "1")]

/-- A bad time behind a good one, which stands under a longer key. -/
def Values.shadowedTime : Values := OrderedMap.ofList [
  ("hop_0_addr_1", "8.8.8.8"), ("hop_00_rtt", "1"), ("hop_0_rtt", "4000")]

/-- A bad time of a hop without an address. -/
def Values.timeAlone : Values := OrderedMap.ofList [
  ("hop_0_addr_1", "8.8.8.8"), ("hop_0_rtt", "1"), ("hop_1_rtt", "4000")]

/-- A route may pass with a bad value under a key that does not count. -/
theorem Validator.passes_unreliable :
    ((traceroute .beyondIndices).score.isValid = true ∧ ¬Route.NoBadValue .beyondIndices) ∧
      ((traceroute .shadowedAddress).score.isValid = true ∧ ¬Route.NoBadValue .shadowedAddress) ∧
      ((traceroute .shadowedTime).score.isValid = true ∧ ¬Route.NoBadValue .shadowedTime) ∧
      ((traceroute .timeAlone).score.isValid = true ∧ ¬Route.NoBadValue .timeAlone) := by
  have hnoAddress : parseAddress? "*" = none := by decide +kernel
  have hnoTime : ¬Route.IsTime "4000" := by decide +kernel
  refine ⟨⟨by decide +kernel, fun h => ?_⟩, ⟨by decide +kernel, fun h => ?_⟩,
    ⟨by decide +kernel, fun h => ?_⟩, ⟨by decide +kernel, fun h => ?_⟩⟩
  · have hle := (h.address "4294967296" "1" "8.8.8.8" (by decide) (by decide) (by decide)).1
    exact absurd hle (by decide)
  · obtain ⟨a, ha⟩ := (h.address "00" "1" "*" (by decide) (by decide) (by decide)).2
    cases hnoAddress.symm.trans ha
  · exact hnoTime (h.time "0" "4000" (by decide) (by decide))
  · exact hnoTime (h.time "1" "4000" (by decide) (by decide))

end NetAudit
