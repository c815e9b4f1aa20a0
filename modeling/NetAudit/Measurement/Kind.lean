/-!
# Kinds of measurements

What a measurement measures is told by a tag. Seven tags are known; any other text is the tag of a
kind that the program has not heard of, and is kept as it is.

Main statement: `ofTag_tag` and `tag_ofTag` (a kind and its tag determine each other).
-/

namespace NetAudit

/-- The tags that are known, in the order in which their kinds are listed. -/
def knownTags : List String :=
  ["ping", "dns_lookup", "traceroute", "http", "tcpthroughput", "rrc", "udp_burst"]

/-- What a measurement measures. -/
inductive Kind where
  | ping
  | dnsLookup
  | traceroute
  | http
  | tcpThroughput
  | rrc
  | udpBurst
  | other (tag : String) (unknown : tag ∉ knownTags)
deriving DecidableEq

namespace Kind

/-- The tag of a kind. -/
def tag : Kind → String
  | ping => "ping"
  | dnsLookup => "dns_lookup"
  | traceroute => "traceroute"
  | http => "http"
  | tcpThroughput => "tcpthroughput"
  | rrc => "rrc"
  | udpBurst => "udp_burst"
  | other tag _ => tag

/-- The kinds whose tags are known. -/
def known : List Kind := [ping, dnsLookup, traceroute, http, tcpThroughput, rrc, udpBurst]

theorem map_tag_known : known.map tag = knownTags := rfl

/-- The kind with a tag. -/
def ofTag (tag : String) : Kind :=
  match h : known.find? (·.tag == tag) with
  | some k => k
  | none => other tag fun hmem => by
    rw [← map_tag_known, List.mem_map] at hmem
    obtain ⟨k, hk, rfl⟩ := hmem
    simpa using List.find?_eq_none.1 h k hk

/-- The kinds that have a validator, in the order of the columns of a time series. -/
def validated : List Kind := [ping, dnsLookup, traceroute, http, udpBurst]

/-- The tag of the kind is known. -/
def isKnown : Kind → Bool
  | other _ _ => false
  | _ => true

/-- The kind has a validator. -/
def isValidated (k : Kind) : Bool := validated.contains k

/-! ### Kinds and tags -/

@[simp] theorem tag_ofTag (tag : String) : (ofTag tag).tag = tag := by
  unfold ofTag
  split
  · next k h => simpa using List.find?_some h
  · rfl

theorem tag_mem_knownTags {k : Kind} (h : k.isKnown) : k.tag ∈ knownTags := by
  cases k with
  | other => cases h
  | _ => decide

/-- A kind whose tag is not known is determined by its tag. -/
theorem eq_other_of_tag_not_mem {k : Kind} (h : k.tag ∉ knownTags) : k = other k.tag h := by
  cases k with
  | other => rfl
  | _ => exact absurd (tag_mem_knownTags rfl) h

theorem tag_injective {j k : Kind} (h : j.tag = k.tag) : j = k := by
  by_cases hk : k.tag ∈ knownTags
  · have hj : j.tag ∈ knownTags := h ▸ hk
    cases j with
    | other _ hn => exact absurd hj hn
    | _ => cases k with
      | other _ hn => exact absurd hk hn
      | _ => first | rfl | exact absurd h (by decide)
  · have hj : j.tag ∉ knownTags := h ▸ hk
    rw [eq_other_of_tag_not_mem hj, eq_other_of_tag_not_mem hk]
    congr 1

@[simp] theorem ofTag_tag (k : Kind) : ofTag k.tag = k := tag_injective (tag_ofTag _)

/-! ### Order -/

/-- The place of a kind in the list of known ones, and after them all for any other. -/
def rank : Kind → Nat
  | ping => 0
  | dnsLookup => 1
  | traceroute => 2
  | http => 3
  | tcpThroughput => 4
  | rrc => 5
  | udpBurst => 6
  | other _ _ => 7

/-- Known kinds stand before others, in the order of their list; others stand by their tags. -/
instance : Ord Kind := ⟨compareLex (compareOn rank) (compareOn tag)⟩

instance : Std.TransOrd Kind :=
  inferInstanceAs (Std.TransCmp (compareLex (compareOn rank) (compareOn tag)))

theorem compare_def (j k : Kind) :
    compare j k = (compare j.rank k.rank).then (compare j.tag k.tag) := rfl

instance : Std.LawfulEqOrd Kind where
  compare_self := by simp
  eq_of_compare {j k} h := by
    rw [compare_def, Ordering.then_eq_eq] at h
    exact tag_injective (Std.LawfulEqCmp.eq_of_compare h.2)

end Kind

end NetAudit
