import Mathlib.Data.List.Nodup
import Mathlib.Data.List.Perm.Subperm
import Mathlib.Data.Nat.Find
import NetAudit.Proofs.OrderedMap
import NetAudit.Proofs.Validation.Checklists
import NetAudit.Validation.Validator

/-!
# How routes are judged

A route is in order if its hops are numbered from zero without a gap, if there are not too many, and
if all addresses and times can be read and are within their bounds.

A hop is scored by its place among the hops, which is its index as long as no index below it is
missing (`index_eq_length_iff`). So what is wrong with a hop can be said without its place
(`Route.hopTags`), and the tags of a route are those of its hops in a row (`Route.errors_score`).
-/

namespace NetAudit

/-- In an ascending list a number stands at its own place if all numbers below it are listed. -/
theorem index_eq_length_iff {before after : List Nat} {index : Nat}
    (h : (before ++ index :: after).Pairwise (· < ·)) :
    index = before.length ↔ ∀ j < index, j ∈ before ++ index :: after := by
  obtain ⟨hbefore, hafter, hlt⟩ := List.pairwise_append.1 h
  have hbelow : ∀ j ∈ before, j < index := fun j hj => hlt j hj index List.mem_cons_self
  have hnodup : before.Nodup := hbefore.imp Nat.ne_of_lt
  -- Only numbers before `index` can be below it.
  have hlisted : ∀ j < index, j ∈ before ++ index :: after ↔ j ∈ before := by
    intro j hj
    have habove : j ∉ index :: after := by
      intro hmem
      rcases List.mem_cons.1 hmem with rfl | hmem
      · exact Nat.lt_irrefl j hj
      · exact Nat.lt_asymm hj ((List.pairwise_cons.1 hafter).1 j hmem)
    simp [List.mem_append, habove]
  have hrange : before.Subperm (List.range index) :=
    hnodup.subperm fun j hj => List.mem_range.2 (hbelow j hj)
  constructor
  · rintro hplace j hj
    have hperm := hrange.perm_of_length_le (by simp [← hplace])
    exact (hlisted j hj).2 (hperm.mem_iff.2 (List.mem_range.2 hj))
  · intro hall
    have hback : (List.range index).Subperm before := by
      apply List.nodup_range.subperm
      intro j hj
      exact (hlisted j (List.mem_range.1 hj)).1 (hall j (List.mem_range.1 hj))
    have hle := hback.length_le
    have hge := hrange.length_le
    rw [List.length_range] at hle hge
    omega

theorem count_flatMap_eq_total {α : Type} (tags : α → List String) (tag : String) (as : List α) :
    (as.flatMap tags).count tag = Number.total (as.map fun a => (tags a).count tag) := by
  induction as with
  | nil => rfl
  | cons a as ih =>
      rw [List.flatMap_cons, List.count_append, ih]
      rfl

/-- A tag that each of many earns once or not at all is earned as often as there are such. -/
theorem count_flatMap_eq_countP {α : Type} {tags : α → List String} {p : α → Bool} {tag : String}
    (h : ∀ a, (tags a).count tag = if p a then 1 else 0) (as : List α) :
    (as.flatMap tags).count tag = as.countP p := by
  induction as with
  | nil => rfl
  | cons a as ih =>
      rw [List.flatMap_cons, List.count_append, ih, h, List.countP_cons, Nat.add_comm]

theorem Outcome.errors_append (o p : Outcome) : (o ++ p).errors = o.errors ++ p.errors := rfl

theorem Outcome.errors_foldl_fail (tags : List String) (o : Outcome) :
    (tags.foldl fail o).errors = o.errors ++ tags := by
  induction tags generalizing o with
  | nil => simp
  | cons tag tags ih => simp [ih, fail]

namespace Route

variable {r : Route} {index : Nat} {addresses : OrderedMap String String}

/-! ## What can be wrong with a hop

The tags of a hop are written down as a list, in the order in which they are raised. -/

/-- Some index below this one is not that of a hop. -/
def AfterGap (r : Route) (index : Nat) : Prop := ∃ j < index, r.hops.contains j = false

instance : Decidable (r.AfterGap index) :=
  inferInstanceAs (Decidable (∃ j < index, r.hops.contains j = false))

/-- The least index that is not that of a hop. -/
structure FirstGap (r : Route) (gap : Nat) : Prop where
  free : r.hops.contains gap = false
  full : ∀ j < gap, r.hops.contains j = true

/-- A value is a time of at most three seconds, in milliseconds. -/
def IsTime (value : String) : Prop := ∃ ms, parseNumber? value = some ms ∧ 0 ≤ ms ∧ ms ≤ 3000

theorem rttInRange_iff {value : String} : rttInRange value = true ↔ IsTime value := by
  unfold rttInRange IsTime
  cases parseNumber? value <;> simp [between_iff]

instance {value : String} : Decidable (IsTime value) :=
  decidable_of_iff (rttInRange value = true) rttInRange_iff

/-- There is a time for a hop, but it cannot be read or is out of bounds. -/
def HasBadTime (r : Route) (index : Nat) : Prop := ∃ value ∈ r.rtts.find? index, ¬IsTime value

instance : Decidable (r.HasBadTime index) :=
  inferInstanceAs (Decidable (∃ value ∈ r.rtts.find? index, ¬IsTime value))

/-- The tag of the time to a hop, if there is something wrong with it. -/
def rttTags (r : Route) (index : Nat) : List String :=
  match r.rtts.find? index with
  | none => [missingFieldTag "rtt"]
  | some value => if IsTime value then [] else [Tag.latencyNotValid]

/-- The number of values that are no addresses. -/
def unreadable (addresses : OrderedMap String String) : Nat :=
  addresses.values.countP fun a => (parseAddress? a).isNone

/-- The tags of all that is wrong with a hop. -/
def hopTags (r : Route) (index : Nat) (addresses : OrderedMap String String) : List String :=
  (if r.AfterGap index then [Tag.missingHop] else []) ++
    (if 45 < index then [Tag.tooManyHops] else []) ++
    List.replicate (unreadable addresses) Tag.addressNotValid ++ r.rttTags index

theorem errors_scoreRtt (r : Route) (index : Nat) :
    (r.scoreRtt index).errors = r.rttTags index := by
  unfold scoreRtt rttTags
  cases r.rtts.find? index with
  | none => rfl
  | some value =>
      simp only [rttInRange_iff]
      split <;> rfl

theorem errors_scoreHop (r : Route) (position index : Nat)
    (addresses : OrderedMap String String) :
    (r.scoreHop position index addresses).errors =
      (if index = position then [] else [Tag.missingHop]) ++
        (if 45 < index then [Tag.tooManyHops] else []) ++
        List.replicate (unreadable addresses) Tag.addressNotValid ++ r.rttTags index := by
  unfold scoreHop unreadable
  rw [Outcome.errors_append, Outcome.errors_foldl_fail, errors_scoreRtt, List.map_const',
    List.countP_eq_length_filter]
  rfl

/-! ## Hops in a row

Hops are scored by ascending index. The place of a hop says whether a hop before it is missing. -/

theorem keys_pairwise (r : Route) : r.hops.keys.Pairwise (· < ·) := by
  unfold OrderedMap.keys
  rw [List.pairwise_map]
  apply r.hops.ascending.imp
  intro a b hab
  exact Nat.compare_eq_lt.1 hab

/-- **A hop stands at the place of its index** unless it comes after a gap. -/
theorem index_eq_iff_not_afterGap {before after : List (Nat × OrderedMap String String)}
    (h : r.hops.toList = before ++ (index, addresses) :: after) :
    index = before.length ↔ ¬r.AfterGap index := by
  have hkeys : r.hops.keys = before.map (·.1) ++ index :: after.map (·.1) := by
    unfold OrderedMap.keys
    rw [h, List.map_append, List.map_cons]
  have hpairwise := r.keys_pairwise
  rw [hkeys] at hpairwise
  rw [← List.length_map (·.1), index_eq_length_iff hpairwise, ← hkeys]
  simp [AfterGap, OrderedMap.mem_keys_iff]

theorem errors_scoreHops (before : List (Nat × OrderedMap String String))
    {after : List (Nat × OrderedMap String String)} (h : r.hops.toList = before ++ after) :
    (r.scoreHops before.length after).errors =
      after.flatMap fun hop => r.hopTags hop.1 hop.2 := by
  induction after generalizing before with
  | nil => rfl
  | cons hop after ih =>
      obtain ⟨index, addresses⟩ := hop
      have hrest := ih (before ++ [(index, addresses)]) (by simp [h])
      rw [List.length_append, List.length_singleton] at hrest
      rw [scoreHops, Outcome.errors_append, hrest, errors_scoreHop, List.flatMap_cons, hopTags]
      simp only [index_eq_iff_not_afterGap h, ite_not]

/-- **The tags of a route** are those of its hops, by ascending index. -/
theorem errors_score (r : Route) :
    r.score.errors = r.hops.toList.flatMap fun hop => r.hopTags hop.1 hop.2 :=
  errors_scoreHops [] rfl

/-! ## Routes in order

No tag at all is raised just if the indices are the first ones without a gap, and nothing is wrong
with any hop. -/

/-- The hops have the indices from zero on, at most 46 of them, all their addresses can be read, and
each has a time. -/
structure InOrder (r : Route) : Prop where
  indices : ∃ n ≤ 46, r.hops.keys = List.range n
  addresses : ∀ index hop, r.hops.find? index = some hop →
    ∀ field value, hop.find? field = some value → ∃ a, parseAddress? value = some a
  times : ∀ index, r.hops.contains index = true →
    ∃ value, r.rtts.find? index = some value ∧ IsTime value

theorem unreadable_eq_zero_iff : unreadable addresses = 0 ↔
    ∀ field value, addresses.find? field = some value → ∃ a, parseAddress? value = some a := by
  unfold unreadable OrderedMap.values
  simp [List.countP_eq_zero, OrderedMap.find?_eq_some_iff, ← Option.ne_none_iff_exists']

theorem rttTags_eq_nil_iff :
    r.rttTags index = [] ↔ ∃ value, r.rtts.find? index = some value ∧ IsTime value := by
  unfold rttTags
  cases r.rtts.find? index with
  | none => simp
  | some value => by_cases h : IsTime value <;> simp [h]

theorem hopTags_eq_nil_iff : r.hopTags index addresses = [] ↔
    (¬r.AfterGap index ∧ index ≤ 45) ∧
      (∀ field value, addresses.find? field = some value → ∃ a, parseAddress? value = some a) ∧
      ∃ value, r.rtts.find? index = some value ∧ IsTime value := by
  rw [← unreadable_eq_zero_iff, ← rttTags_eq_nil_iff]
  simp [hopTags, and_assoc]

/-- **Indices without a gap** are those from zero on. -/
theorem indices_iff : (∀ index ∈ r.hops.keys, ¬r.AfterGap index ∧ index ≤ 45) ↔
    ∃ n ≤ 46, r.hops.keys = List.range n := by
  constructor
  · intro h
    -- Without a gap before it, each index is its own place in the list.
    have hplace : ∀ (p : Nat) (hp : p < r.hops.keys.length), r.hops.keys[p] = p := by
      intro p hp
      have hsplit :
          r.hops.keys = r.hops.keys.take p ++ r.hops.keys[p] :: r.hops.keys.drop (p + 1) := by simp
      have hpairwise := r.keys_pairwise
      rw [hsplit] at hpairwise
      have hindex := (index_eq_length_iff hpairwise).2 (by
        rw [← hsplit]
        intro j hj
        rw [OrderedMap.mem_keys_iff, ← Bool.not_eq_false]
        exact fun hfree => (h _ (List.getElem_mem hp)).1 ⟨j, hj, hfree⟩)
      rwa [List.length_take_of_le (Nat.le_of_lt hp)] at hindex
    refine ⟨r.hops.keys.length, ?_, List.ext_getElem (by simp) (by simpa using hplace)⟩
    by_contra hlong
    have hlast := (h _ (List.getElem_mem (show 46 < r.hops.keys.length by omega))).2
    rw [hplace] at hlast
    omega
  · rintro ⟨n, hn, hkeys⟩ index hindex
    rw [hkeys, List.mem_range] at hindex
    refine ⟨?_, by omega⟩
    rintro ⟨j, hj, hfree⟩
    have hmem : j ∈ r.hops.keys := by
      rw [hkeys, List.mem_range]
      omega
    rw [OrderedMap.mem_keys_iff, hfree] at hmem
    cases hmem

/-- **A route gets no tag** if it is in order, and only then. -/
theorem errors_eq_nil_iff : r.score.errors = [] ↔ r.InOrder := by
  rw [errors_score, List.flatMap_eq_nil_iff]
  simp only [hopTags_eq_nil_iff]
  -- Tags are raised along the list of hops, and the order is said by look-ups.
  constructor
  · intro h
    have hfound : ∀ index hop, r.hops.find? index = some hop → (index, hop) ∈ r.hops.toList :=
      fun index hop => (OrderedMap.find?_eq_some_iff _ _ _).1
    refine ⟨indices_iff.1 ?_, fun index hop hhop => (h _ (hfound index hop hhop)).2.1, ?_⟩
    · intro index hindex
      obtain ⟨hop, hmem, rfl⟩ := List.mem_map.1 hindex
      exact (h hop hmem).1
    · intro index hindex
      obtain ⟨hop, hhop⟩ := Option.isSome_iff_exists.1 hindex
      exact (h _ (hfound index hop hhop)).2.2
  · rintro ⟨hindices, haddresses, htimes⟩ ⟨index, hop⟩ hmem
    have hkey : index ∈ r.hops.keys := List.mem_map_of_mem hmem
    have hhop := (OrderedMap.find?_eq_some_iff _ _ _).2 hmem
    exact ⟨indices_iff.2 hindices index hkey, haddresses index hop hhop,
      htimes index ((OrderedMap.mem_keys_iff _ _).1 hkey)⟩

/-! ## How often a tag is raised

Each tag is raised a number of times for each hop, and these add up over the hops. -/

/-- There are finitely many hops, so one index is the first that is missing. -/
theorem exists_firstGap (r : Route) : ∃ gap, r.FirstGap gap := by
  have hfree : ∃ j, r.hops.contains j = false := by
    by_contra hnone
    have hall : List.range (r.hops.keys.length + 1) ⊆ r.hops.keys := by
      intro j _
      rw [OrderedMap.mem_keys_iff, ← Bool.not_eq_false]
      exact fun hj => hnone ⟨j, hj⟩
    have hle := (List.nodup_range.subperm hall).length_le
    rw [List.length_range] at hle
    omega
  refine ⟨Nat.find hfree, Nat.find_spec hfree, fun j hj => ?_⟩
  rw [← Bool.not_eq_false]
  exact Nat.find_min hfree hj

theorem FirstGap.afterGap_iff {gap : Nat} (h : r.FirstGap gap) :
    r.AfterGap index ↔ gap < index := by
  constructor
  · rintro ⟨j, hj, hfree⟩
    by_contra hle
    rw [h.full j (by omega)] at hfree
    cases hfree
  · intro hlt
    exact ⟨gap, hlt, h.free⟩

theorem count_singleton_if {p : Prop} [Decidable p] {tag other : String} :
    (if p then [other] else []).count tag = if p ∧ tag = other then 1 else 0 := by
  by_cases hp : p
  · simp [hp, List.count_singleton, @eq_comm _ other]
  · simp [hp]

theorem rttTags_eq (r : Route) (index : Nat) :
    r.rttTags index = (if r.rtts.contains index = false then [missingFieldTag "rtt"] else []) ++
      if r.HasBadTime index then [Tag.latencyNotValid] else [] := by
  unfold rttTags
  cases hvalue : r.rtts.find? index with
  | none => simp [OrderedMap.contains, HasBadTime, hvalue]
  | some value =>
      by_cases h : IsTime value <;> simp [OrderedMap.contains, HasBadTime, hvalue, h]

/-- **How often a hop earns each tag**: all but the one for addresses at most once. -/
theorem count_hopTags (r : Route) (index : Nat) (addresses : OrderedMap String String) :
    (r.hopTags index addresses).count Tag.missingHop = (if r.AfterGap index then 1 else 0) ∧
      (r.hopTags index addresses).count Tag.tooManyHops = (if 45 < index then 1 else 0) ∧
      (r.hopTags index addresses).count Tag.addressNotValid = unreadable addresses ∧
      (r.hopTags index addresses).count (missingFieldTag "rtt") =
        (if r.rtts.contains index = false then 1 else 0) ∧
      (r.hopTags index addresses).count Tag.latencyNotValid =
        (if r.HasBadTime index then 1 else 0) := by
  simp [hopTags, rttTags_eq, count_singleton_if, List.count_replicate, Tag.missingHop,
    Tag.tooManyHops, Tag.addressNotValid, Tag.latencyNotValid, missingFieldTag]

/-- A tag that a hop earns once or not at all is raised as often as there are hops that earn it. -/
theorem count_eq_countP {tag : String} {p : Nat → Bool}
    (h : ∀ index addresses, (r.hopTags index addresses).count tag = if p index then 1 else 0) :
    r.score.errors.count tag = r.hops.keys.countP p := by
  rw [errors_score, OrderedMap.keys, List.countP_map]
  exact count_flatMap_eq_countP (fun hop => h hop.1 hop.2) _

/-- **Hops after a gap** are reported, each of them once. -/
theorem count_missingHop {gap : Nat} (h : r.FirstGap gap) :
    r.score.errors.count Tag.missingHop = r.hops.keys.countP fun index => gap < index := by
  apply count_eq_countP
  intro index addresses
  obtain ⟨hcount, -⟩ := r.count_hopTags index addresses
  simp [hcount, h.afterGap_iff]

/-- **Hops too far away** are reported, each of them once. -/
theorem count_tooManyHops (r : Route) :
    r.score.errors.count Tag.tooManyHops = r.hops.keys.countP fun index => 45 < index := by
  apply count_eq_countP
  intro index addresses
  obtain ⟨-, hcount, -⟩ := r.count_hopTags index addresses
  simp [hcount]

/-- **Each value that is no address** is reported, also several of one hop. -/
theorem count_addressNotValid (r : Route) :
    r.score.errors.count Tag.addressNotValid = Number.total (r.hops.values.map unreadable) := by
  rw [errors_score, OrderedMap.values, List.map_map, count_flatMap_eq_total]
  congr 1
  apply List.map_congr_left
  rintro ⟨index, addresses⟩ -
  obtain ⟨-, -, hcount, -⟩ := r.count_hopTags index addresses
  exact hcount

/-- **Hops without a time** are reported, each of them once. -/
theorem count_missingRtt (r : Route) :
    r.score.errors.count (missingFieldTag "rtt") =
      r.hops.keys.countP fun index => !r.rtts.contains index := by
  apply count_eq_countP
  intro index addresses
  obtain ⟨-, -, -, hcount, -⟩ := r.count_hopTags index addresses
  simp [hcount]

/-- **Hops with a bad time** are reported, each of them once. -/
theorem count_latencyNotValid (r : Route) :
    r.score.errors.count Tag.latencyNotValid =
      r.hops.keys.countP fun index => r.HasBadTime index := by
  apply count_eq_countP
  intro index addresses
  obtain ⟨-, -, -, -, hcount⟩ := r.count_hopTags index addresses
  simp [hcount]

/-- How the hops of a route are judged. -/
structure Judged (r : Route) (o : Outcome) : Prop where
  valid_iff : o.isValid = true ↔ o.errors = []
  inOrder_iff : o.errors = [] ↔ r.InOrder
  /-- The tags of a hop stand together, and the hops by ascending index. -/
  grouped : o.errors = r.hops.toList.flatMap fun hop => r.hopTags hop.1 hop.2
  ascending : r.hops.keys.Pairwise (· < ·)
  missing : ∃ gap, r.FirstGap gap ∧ (∀ index, r.AfterGap index ↔ gap < index) ∧
    o.errors.count Tag.missingHop = r.hops.keys.countP fun index => gap < index
  tooMany : o.errors.count Tag.tooManyHops = r.hops.keys.countP fun index => 45 < index
  unread : o.errors.count Tag.addressNotValid = Number.total (r.hops.values.map unreadable)
  untimed : o.errors.count (missingFieldTag "rtt") =
    r.hops.keys.countP fun index => !r.rtts.contains index
  late : o.errors.count Tag.latencyNotValid = r.hops.keys.countP fun index => r.HasBadTime index

end Route

/-- **A route is judged** hop by hop, whatever the order of the keys of its values. -/
theorem Validator.judges_routes (vs : Values) :
    (Route.ofValues vs).Judged (traceroute vs).score where
  valid_iff := Outcome.isValid_iff _
  inOrder_iff := Route.errors_eq_nil_iff
  grouped := Route.errors_score _
  ascending := Route.keys_pairwise _
  missing := by
    obtain ⟨gap, hgap⟩ := (Route.ofValues vs).exists_firstGap
    exact ⟨gap, hgap, fun _ => hgap.afterGap_iff, Route.count_missingHop hgap⟩
  tooMany := Route.count_tooManyHops _
  unread := Route.count_addressNotValid _
  untimed := Route.count_missingRtt _
  late := Route.count_latencyNotValid _

/-- Hop 10 comes after hop 2, though its keys come before, and both come after a gap. -/
example : (Validator.traceroute (OrderedMap.ofList [("hop_0_addr_1", "10.0.0.1"),
    ("hop_0_rtt", "1"), ("hop_10_addr_1", "10.0.0.2"), ("hop_2_addr_1", "*"),
    ("hop_2_rtt", "2")])).score.errors =
      [Tag.missingHop, Tag.addressNotValid, Tag.missingHop, "missing_field_rtt"] := by
  decide +kernel

end NetAudit
