import Mathlib.Data.Finset.Card
import Mathlib.Data.String.Basic
import NetAudit.Proofs.Dashboard.TopErrors
import NetAudit.Proofs.Lists

/-!
# Rankings of errors

A ranking is determined by how often each category of errors was met: it lists the categories that
were met, by a strict order, and is cut off at its length (`TopErrors.Ranks`). So it does not depend
on the order in which measurements are counted, and a shorter ranking is the front of a longer one.

`TopErrors.rankings_of_shows` says this of the rankings of any store that is looked at.
-/

namespace NetAudit

/-! ## The order of categories

The category that was met more often comes first, and of two that were met equally often the one
whose text comes first. This is a strict total order. -/

/-- The one category is met more often, or as often as the other and its text comes first. -/
def ErrorCount.Above (a b : ErrorCount) : Prop :=
  b.count < a.count ∨ b.count = a.count ∧ a.error < b.error

theorem ErrorCount.Above.trans {a b c : ErrorCount} (hab : a.Above b) (hbc : b.Above c) :
    a.Above c := by
  rcases hab with hab | ⟨hab, hab'⟩ <;> rcases hbc with hbc | ⟨hbc, hbc'⟩
  · exact .inl (hbc.trans hab)
  · exact .inl (hbc ▸ hab)
  · exact .inl (hab ▸ hbc)
  · exact .inr ⟨hbc.trans hab, hab'.trans hbc'⟩

theorem ErrorCount.above_trichotomy (a b : ErrorCount) : a.Above b ∨ a = b ∨ b.Above a := by
  rcases a with ⟨x, m⟩
  rcases b with ⟨y, n⟩
  rcases lt_trichotomy n m with h | rfl | h
  · exact .inl (.inl h)
  · rcases lt_trichotomy x y with h | rfl | h
    · exact .inl (.inr ⟨rfl, h⟩)
    · exact .inr (.inl rfl)
    · exact .inr (.inr (.inr ⟨rfl, h⟩))
  · exact .inr (.inr (.inl h))

namespace TopErrors

/-- Categories are sorted by this order. -/
theorem outranks_iff (a b : ErrorCount) : outranks a b = true ↔ a.Above b ∨ a = b := by
  unfold outranks ErrorCount.Above
  rcases a with ⟨x, m⟩
  rcases b with ⟨y, n⟩
  rcases lt_trichotomy n m with h | rfl | h
  · simp [compare_lt_iff_lt.2 h, h]
  · rcases lt_trichotomy x y with h | rfl | h
    · simp [compare_lt_iff_lt.2 h, h]
    · simp
    · simp [compare_gt_iff_gt.2 h, h.not_gt, h.ne']
  · simp [compare_gt_iff_gt.2 h, h.not_gt, h.ne]
    omega

theorem outranks_trans (a b c : ErrorCount) (hab : outranks a b = true)
    (hbc : outranks b c = true) : outranks a c = true := by
  rw [outranks_iff] at *
  rcases hab with hab | rfl
  · rcases hbc with hbc | rfl
    · exact .inl (hab.trans hbc)
    · exact .inl hab
  · exact hbc

theorem outranks_total (a b : ErrorCount) : (outranks a b || outranks b a) = true := by
  rw [Bool.or_eq_true, outranks_iff, outranks_iff]
  rcases a.above_trichotomy b with h | rfl | h
  · exact .inl (.inl h)
  · exact .inl (.inr rfl)
  · exact .inr (.inl h)

/-! ## What is ranked

`TopErrors.Ranks` says which list a ranking is, given how often each category was met. -/

section Names

variable {names : List String}

theorem mem_ranked_iff (row : ErrorCount) :
    row ∈ ranked (.ofNames names) ↔ row.error ∈ names ∧ row.count = names.count row.error := by
  unfold ranked
  rw [(List.mergeSort_perm _ _).mem_iff, List.mem_map]
  constructor
  · rintro ⟨⟨error, count⟩, hmem, rfl⟩
    rw [← OrderedMap.find?_eq_some_iff, Counts.find?_ofNames] at hmem
    simpa [eq_comm] using hmem
  · rintro ⟨hmem, hcount⟩
    refine ⟨(row.error, row.count), ?_, rfl⟩
    rw [← OrderedMap.find?_eq_some_iff, Counts.find?_ofNames, if_pos hmem, hcount]

theorem nodup_ranked : ((ranked (.ofNames names)).map (·.error)).Nodup := by
  have hperm : (ranked (.ofNames names)).Perm
      ((Counts.ofNames names).toList.map fun e => ⟨e.1, e.2⟩) := List.mergeSort_perm _ _
  rw [(hperm.map _).nodup_iff, List.map_map]
  exact (Counts.ofNames names).nodup_keys

theorem ranked_pairwise : (ranked (.ofNames names)).Pairwise ErrorCount.Above := by
  have hsorted : (ranked (.ofNames names)).Pairwise fun a b => outranks a b = true :=
    List.pairwise_mergeSort outranks_trans outranks_total _
  have hdistinct : (ranked (.ofNames names)).Pairwise fun a b => a.error ≠ b.error :=
    List.pairwise_map.1 nodup_ranked
  refine (hdistinct.and hsorted).imp fun {a b} h => ?_
  exact ((outranks_iff a b).1 h.2).resolve_right fun heq => h.1 (congrArg ErrorCount.error heq)

/-- **The order in which errors are met makes no difference.** -/
theorem ranked_perm {others : List String} (h : names.Perm others) :
    ranked (.ofNames names) = ranked (.ofNames others) := by
  congr 1
  apply OrderedMap.ext_find?
  intro error
  rw [Counts.find?_ofNames, Counts.find?_ofNames, h.count_eq]
  simp only [h.mem_iff]

end Names

/-- The first `n` categories of errors by rank, where `count` says how often each was met. -/
structure Ranks (count : String → Nat) (n : Nat) (rows : List ErrorCount) : Prop where
  ordered : rows.Pairwise ErrorCount.Above
  distinct : (rows.map (·.error)).Nodup
  counts : ∀ row ∈ rows, 0 < row.count ∧ row.count = count row.error
  limited : rows.length ≤ n
  /-- What was met is left out only below a full ranking. -/
  complete : ∀ error, 0 < count error → error ∉ rows.map (·.error) →
    rows.length = n ∧ ∀ row ∈ rows, row.Above ⟨error, count error⟩

/-- **The categories that were met are ranked.** -/
theorem ranks_take (names : List String) (n : Nat) :
    Ranks names.count n ((ranked (.ofNames names)).take n) where
  ordered := ranked_pairwise.sublist (List.take_sublist _ _)
  distinct := nodup_ranked.sublist ((List.take_sublist _ _).map _)
  counts row hrow := by
    obtain ⟨hmet, hcount⟩ := (mem_ranked_iff row).1 (List.mem_of_mem_take hrow)
    exact ⟨hcount ▸ List.count_pos_iff.2 hmet, hcount⟩
  limited := List.length_take_le _ _
  complete error hmet hout := by
    have hranked : ⟨error, names.count error⟩ ∈ ranked (.ofNames names) :=
      (mem_ranked_iff _).2 ⟨List.count_pos_iff.1 hmet, rfl⟩
    exact take_of_not_mem ranked_pairwise hranked fun hmem => hout (List.mem_map_of_mem hmem)

end TopErrors

/-! ## What a store reports

How often a category was met is a number of measurements: those of which a look-up reports it. -/

namespace View

/-- In a store that shows `v`, the measurement of a name is there and failed, and its device has
said an error of this category. -/
def Reports (v : View) (error : String) (id : MeasurementId) : Prop :=
  ∃ m text, v.measurement id = .ok (some m) ∧ m.success = false ∧
    m.values.find? "error" = some text ∧ errorExcerpt (Text.unquote text) = error

variable {v : View}

theorem errorOf?_eq_some_iff {error : String} {id : MeasurementId} :
    v.errorOf? id = some error ↔ v.Reports error id := by
  unfold errorOf? Reports Measurement.error?
  rcases hm : v.measurement id with e | _ | m
  · simp [foundIn]
  · simp [foundIn]
  · cases hsuccess : m.success <;> simp [foundIn, hsuccess]

instance (error : String) : DecidablePred (v.Reports error) := fun _ =>
  decidable_of_iff _ errorOf?_eq_some_iff

theorem count_errorOf? (error : String) (ids : List MeasurementId) :
    (ids.filterMap v.errorOf?).count error = ids.countP fun id => v.Reports error id := by
  rw [List.count_eq_countP, List.countP_filterMap]
  apply List.countP_congr
  intro id _
  rw [decide_eq_true_iff, ← errorOf?_eq_some_iff]
  cases v.errorOf? id <;> simp

end View

namespace TopErrors

variable {σ : Type} {store : Store σ} {states : σ → Prop} {v : View} {s : σ}

/-- What is promised of rankings, in a state in which a store shows `v`. -/
structure Rankings (store : Store σ) (v : View) (s : σ) : Prop where
  /-- Some entries are ranked by the measurements that report an error, as often as these are
  named. -/
  counted : ∀ (entries : List Entry) (n : Nat),
    v.faultAmong (entries.map Entry.measurement) = none →
    ∃ top, ((ofEntries store entries n).perform s).value = .ok top ∧
      Ranks (fun error => entries.countP fun e => v.Reports error e.measurement) n top
  /-- If a measurement cannot be looked up, there is no ranking. -/
  failed : ∀ (entries : List Entry) (n : Nat) (e : StoreError),
    v.faultAmong (entries.map Entry.measurement) = some e →
    ((ofEntries store entries n).perform s).value = .error (.query e)
  /-- A shorter ranking is the front of a longer one. -/
  front : ∀ (entries : List Entry) (n m : Nat), n ≤ m →
    ((ofEntries store entries n).perform s).value =
      ((ofEntries store entries m).perform s).value.map (List.take n)
  /-- The order of the entries makes no difference. -/
  reordered : ∀ (entries others : List Entry) (n : Nat), entries.Perm others →
    v.faultAmong (entries.map Entry.measurement) = none →
    ((ofEntries store entries n).perform s).value = ((ofEntries store others n).perform s).value
  /-- Of the first entries of a store, each measurement counts once. -/
  once : ∀ (limit n : Nat) (rows : List (Stored EntryId Entry)), v.entries limit = .ok rows →
    v.faultAmong (rows.map (·.value.measurement)) = none →
    ∃ top, ((ofStore store limit n).perform s).value = .ok top ∧
      Ranks (fun error => {id ∈ (rows.map (·.value.measurement)).toFinset |
        v.Reports error id}.card) n top

/-- What some measurements report, counted as often as they are named. -/
theorem ranks_reports (v : View) (ids : List MeasurementId) (n : Nat) :
    Ranks (fun error => ids.countP fun id => v.Reports error id) n
      ((ranked (.ofNames (ids.filterMap v.errorOf?))).take n) := by
  simpa only [View.count_errorOf?] using ranks_take (ids.filterMap v.errorOf?) n

/-- Without repetitions, each measurement counts once. -/
theorem ranks_reports_once (v : View) (ids : List MeasurementId) (n : Nat) :
    Ranks (fun error => {id ∈ ids.toFinset | v.Reports error id}.card) n
      ((ranked (.ofNames (ids.eraseDups.filterMap v.errorOf?))).take n) := by
  have hcount : ∀ error, {id ∈ ids.toFinset | v.Reports error id}.card =
      ids.eraseDups.countP fun id => v.Reports error id := by
    intro error
    have hsame : {id ∈ ids.toFinset | v.Reports error id} =
        (ids.eraseDups.filter fun id => v.Reports error id).toFinset := by
      ext id
      simp
    rw [hsame, List.toFinset_card_of_nodup ((nodup_eraseDups ids).filter _),
      List.countP_eq_length_filter]
  simpa only [hcount] using ranks_reports v ids.eraseDups n

section Entries

variable (h : store.Shows states v) (hs : states s) {entries : List Entry}

include h hs

theorem ofEntries_of_found (hfound : v.faultAmong (entries.map Entry.measurement) = none)
    (n : Nat) : ((ofEntries store entries n).perform s).value =
      .ok ((ranked (.ofNames ((entries.map Entry.measurement).filterMap v.errorOf?))).take n) := by
  have hvalue := (ofMeasurements_ensures h (entries.map Entry.measurement) n).perform hs
  rwa [hfound] at hvalue

theorem ofEntries_of_fault {e : StoreError}
    (hfault : v.faultAmong (entries.map Entry.measurement) = some e) (n : Nat) :
    ((ofEntries store entries n).perform s).value = .error (.query e) := by
  have hvalue := (ofMeasurements_ensures h (entries.map Entry.measurement) n).perform hs
  rwa [hfault] at hvalue

end Entries

end TopErrors

/-- A ping that failed with an error. -/
def Measurement.failedPing (id error : String) : Measurement :=
  ⟨⟨id⟩, .ping, .epoch, false, .empty, .ofList [("error", error)], ⟨"phone"⟩, none⟩

/-- Three pings that failed, two of them for lack of time. -/
def Archive.ofFailedPings : Archive :=
  (((empty 0).insertMeasurement (.failedPing "first" "timeout")).insertMeasurement
    (.failedPing "second" "no route")).insertMeasurement (.failedPing "third" "\"timeout\"")

example :
    ((TopErrors.ofEntries Archive.store
      (["first", "second", "third"].map fun id => ⟨.nth 0 0, ⟨id⟩, []⟩) 5).perform
        .ofFailedPings).value = .ok [⟨"timeout", 2⟩, ⟨"no route", 1⟩] := by cbv

end NetAudit
