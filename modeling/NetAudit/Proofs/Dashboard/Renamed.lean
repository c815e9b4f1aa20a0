import NetAudit.Proofs.Dashboard.Cells
import NetAudit.Proofs.Dashboard.Detail
import NetAudit.Proofs.Dashboard.TopErrors
import NetAudit.Proofs.Dashboard.Windowless
import NetAudit.Proofs.Run.Renamed

/-!
# What is shown of archives that differ in the names of results

A dashboard shows no names of results. But buckets are filled by them: a summary is looked up under
its name, and names tell which errors were counted before. Both come to the same under other names
which tell apart what these do (`Cell.ofLinks_renamed`). So archives that differ in the names of
results are shown alike (`Archive.SameButNames.shownAlike`).
-/

namespace NetAudit

open Calendar (Instant)

/-! ## Names that correspond

If names correspond one to one, then what is looked up under them and what is counted once for each
of them is the same. -/

/-- What is read alike off items that correspond. -/
theorem map_eq_of_forall₂ {α β γ : Type} {R : α → β → Prop} {f : α → γ} {g : β → γ} {xs : List α}
    {ys : List β} (h : List.Forall₂ R xs ys) (hR : ∀ {x y}, R x y → g y = f x) :
    ys.map g = xs.map f := by
  rw [← List.forall₂_eq_eq_eq, List.forall₂_map_left_iff, List.forall₂_map_right_iff]
  exact h.flip.imp fun _ _ => hR

section Correspondence

variable {α β : Type} [DecidableEq α] [DecidableEq β] {R : α → β → Prop}
  (hR : ∀ {x y x' y'}, R x x' → R y y' → (x = y ↔ x' = y'))

include hR

/-- What is told apart in the one list is told apart in the other. -/
theorem forall₂_eraseDups :
    ∀ {xs : List α} {ys : List β}, List.Forall₂ R xs ys → List.Forall₂ R xs.eraseDups ys.eraseDups
  | [], [], .nil => by
    rw [List.eraseDups_nil, List.eraseDups_nil]
    exact .nil
  | x :: xs, y :: ys, .cons hfirst hrest => by
    rw [List.eraseDups_cons, List.eraseDups_cons]
    have hothers : List.Forall₂ R (xs.filter fun b => !b == x) (ys.filter fun b => !b == y) := by
      refine List.rel_filter (fun b b' hb => ?_) hrest
      simp only [Bool.not_eq_true', beq_eq_false_iff_ne, ne_eq, hR hb hfirst]
    exact .cons hfirst (forall₂_eraseDups hothers)
  termination_by xs => xs.length
  decreasing_by exact Nat.lt_succ_of_le (List.length_filter_le _ _)

/-- Names that correspond lead to the same value. -/
theorem Archive.lookup_eq {γ : Type} {rows : List (Stored α γ)} {rows' : List (Stored β γ)}
    (h : List.Forall₂ (fun x y => R x.id y.id ∧ y.value = x.value) rows rows') {id : α} {id' : β}
    (hid : R id id') : lookup rows' id' = lookup rows id := by
  unfold lookup
  induction h with
  | nil => rfl
  | @cons x y rows rows' hfirst _ ih =>
      rw [List.find?_cons, List.find?_cons]
      have hsame : (y.id = id') = (x.id = id) := propext (hR hfirst.1 hid).symm
      simp only [hsame]
      cases decide (x.id = id) with
      | true => exact congrArg some hfirst.2
      | false => exact ih

end Correspondence

/-! ## Cells

A cell shows its count and its links, and neither shows a name of a summary. -/

/-- The entries are the same, but for the names of their summaries. -/
structure Entry.Renamed (first first' : Nat) (e f : Entry) : Prop where
  measurement : f.measurement = e.measurement
  errors : f.errors = e.errors
  summary : Renames first first' e.summary f.summary

/-- The links are the same, under summaries that are renamed. -/
def LinkRenamed (first first' : Nat) (x y : SummaryId × Link) : Prop :=
  Renames first first' x.1 y.1 ∧ y.2 = x.2

/-- **A cell does not depend on names.** -/
theorem Cell.ofLinks_renamed {first first' : Nat} {errors errors' : SummaryId → Nat}
    (herrors : ∀ {id id'}, Renames first first' id id' → errors' id' = errors id)
    {xs ys : List (SummaryId × Link)} (h : List.Forall₂ (LinkRenamed first first') xs ys) :
    ofLinks errors' ys = ofLinks errors xs := by
  have hempty : ys.isEmpty = xs.isEmpty := by
    cases h <;> rfl
  have hlinks : ys.map (·.2) = xs.map (·.2) := map_eq_of_forall₂ h fun hsame => hsame.2
  have hnames : List.Forall₂ (Renames first first') (xs.map (·.1)) (ys.map (·.1)) := by
    rw [List.forall₂_map_left_iff, List.forall₂_map_right_iff]
    exact h.imp fun _ _ hsame => hsame.1
  have hcounts : (ys.map (·.1)).eraseDups.map errors' = (xs.map (·.1)).eraseDups.map errors :=
    map_eq_of_forall₂ (forall₂_eraseDups Renames.eq_iff hnames) herrors
  unfold ofLinks
  rw [hempty, hlinks, hcounts]

/-- Buckets are told by their cells. -/
theorem Buckets.Filled.eq {b c : Buckets} (hb : b.Filled) (hc : c.Filled)
    (h : ∀ start tag, c.cell? start tag = b.cell? start tag) : c = b := by
  apply OrderedMap.ext_find?
  intro start
  have hcontains : c.contains start = b.contains start := by
    rw [Bool.eq_iff_iff, hb start, hc start]
    simp only [h]
  have hbucket := h start
  unfold OrderedMap.contains at hcontains
  unfold cell? at hbucket
  cases hfound : b.find? start with
  | none => simpa [hfound] using hcontains
  | some bucket =>
      rw [hfound, Option.isSome_some, Option.isSome_iff_exists] at hcontains
      obtain ⟨bucket', hfound'⟩ := hcontains
      simp only [hfound, hfound', Option.bind_some] at hbucket
      rw [hfound', OrderedMap.ext_find? hbucket]

/-! ## Archives

All dashboards of an archive are gone through. Only buckets use names at all. -/

/-- **The archives are shown alike**: their dashboards are equal. -/
structure Archive.ShownAlike (a b : Archive) : Prop where
  buckets : ∀ limit, ((Buckets.ofStore store limit).perform b).value =
    ((Buckets.ofStore store limit).perform a).value
  /-- The buckets of entries that are the same but for names are equal. -/
  bucketsOf : ∀ es fs, List.Forall₂ (Entry.Renamed a.first b.first) es fs →
    ((Buckets.ofEntries store fs).perform b).value = ((Buckets.ofEntries store es).perform a).value
  topErrors : ∀ limit n, ((TopErrors.ofStore store limit n).perform b).value =
    ((TopErrors.ofStore store limit n).perform a).value
  topErrorsOf : ∀ ids n, ((TopErrors.ofMeasurements store ids n).perform b).value =
    ((TopErrors.ofMeasurements store ids n).perform a).value
  timeseries : ∀ metric limit, ((Timeseries.ofStore store metric limit).perform b).value =
    ((Timeseries.ofStore store metric limit).perform a).value
  details : ∀ id, b.detail id = a.detail id

/-- The buckets of entries in an archive. -/
theorem Buckets.ofEntries_archive (a : Archive) (es : List Entry) :
    ∃ b : Buckets, ((ofEntries Archive.store es).perform a).value = .ok b ∧ b.Holds a.view es := by
  have hvalue := (ofEntries_ensures a.store_shows es).perform rfl
  rwa [a.faultResolving_view] at hvalue

theorem Archive.detail_of_find?_eq_none {a : Archive} {id : MeasurementId}
    (h : a.measurements.find? id = none) : a.detail id = .error (.query (.notFound id.text)) := by
  have hread : (Attempt.read (Archive.store.measurement id)).outcome a = (.ok none, a) :=
    congrArg (fun x => (Except.ok x, a)) h
  have houtcome : (ErrorDetail.ofStore Archive.store id).outcome a =
      (.error (.query (.notFound id.text)), a) := by
    unfold ErrorDetail.ofStore
    rw [Attempt.outcome_bind_ok hread]
    rfl
  exact congrArg Prod.fst houtcome

namespace Archive.SameButNames

variable {a b : Archive} (h : a.SameButNames b)

include h

theorem summary?_eq {id id' : SummaryId} (hid : Renames a.first b.first id id') :
    b.summary? id' = a.summary? id :=
  lookup_eq Renames.eq_iff h.forall₂_summaries hid

theorem errorsUnder_eq {id id' : SummaryId} (hid : Renames a.first b.first id id') :
    b.errorsUnder id' = a.errorsUnder id := by
  unfold errorsUnder
  rw [h.summary?_eq hid]

theorem entries_renamed : List.Forall₂ (Entry.Renamed a.first b.first)
    (a.entries.map (·.value)) (b.entries.map (·.value)) := by
  rw [List.forall₂_map_left_iff, List.forall₂_map_right_iff]
  exact h.results.entries.imp fun _ _ hsame =>
    ⟨hsame.1, hsame.2.1, h.renames_of_pairs hsame.2.2⟩

/-- An entry puts the same into a cell. -/
theorem linkAt?_rel {e f : Entry} (he : e.Renamed a.first b.first f) (start : Instant)
    (tag : String) : Option.Rel (LinkRenamed a.first b.first) (a.linkAt? start tag e)
      (b.linkAt? start tag f) := by
  have htarget : b.target? f = a.target? e := by
    unfold target?
    rw [h.summary?_eq he.summary, he.measurement, h.measurements]
  unfold linkAt?
  rw [htarget]
  cases a.target? e with
  | none => exact .none
  | some t =>
      rw [Option.bind_some, Option.bind_some]
      split
      · exact .some ⟨he.summary, rfl⟩
      · exact .none

/-- **The buckets of entries do not depend on names.** -/
theorem buckets_eq {es fs : List Entry}
    (hes : List.Forall₂ (Entry.Renamed a.first b.first) es fs) :
    ((Buckets.ofEntries store fs).perform b).value =
      ((Buckets.ofEntries store es).perform a).value := by
  obtain ⟨x, hx, hxholds⟩ := Buckets.ofEntries_archive a es
  obtain ⟨y, hy, hyholds⟩ := Buckets.ofEntries_archive b fs
  rw [hx, hy]
  apply congrArg Except.ok
  apply hxholds.filled.eq hyholds.filled
  intro start tag
  rw [hxholds.cells, hyholds.cells, a.linkAt?_view, b.linkAt?_view]
  have hlinks : List.Forall₂ (LinkRenamed a.first b.first) (es.filterMap (a.linkAt? start tag))
      (fs.filterMap (b.linkAt? start tag)) := by
    apply List.rel_filterMap _ hes
    exact fun _ _ he => h.linkAt?_rel he start tag
  exact Cell.ofLinks_renamed h.errorsUnder_eq hlinks

theorem errorOf?_eq : b.errorOf? = a.errorOf? := by
  funext id
  unfold errorOf?
  rw [h.measurements]

theorem measurements_entries :
    b.entries.map (·.value.measurement) = a.entries.map (·.value.measurement) :=
  map_eq_of_forall₂ h.results.entries fun hsame => hsame.1

/-- **Archives that differ in the names of results are shown alike.** -/
theorem shownAlike : a.ShownAlike b where
  -- Buckets look up summaries by names that may differ, the other dashboards do without them.
  buckets limit := by
    have hrows : ∀ c : Archive, ((Buckets.ofStore store limit).perform c).value =
        ((Buckets.ofEntries store ((c.entries.take limit).map (·.value))).perform c).value :=
      fun _ => rfl
    rw [hrows, hrows]
    apply h.buckets_eq
    rw [List.map_take, List.map_take]
    exact List.forall₂_take limit h.entries_renamed
  bucketsOf _ _ := h.buckets_eq
  topErrors limit n := by
    have hvalue := fun c : Archive => congrArg Prod.fst (TopErrors.ofStore_outcome limit n c)
    refine (hvalue b).trans (Eq.trans ?_ (hvalue a).symm)
    rw [h.measurements_entries, h.errorOf?_eq]
  topErrorsOf ids n := by
    have hvalue := fun c : Archive =>
      (TopErrors.ofMeasurements_ensures c.store_shows ids n).perform rfl
    have herrors : b.view.errorOf? = a.view.errorOf? := h.errorOf?_eq
    rw [hvalue, hvalue, View.faultAmong_view, View.faultAmong_view, herrors]
  timeseries metric limit := by
    have hvalues : b.summaries.map Stored.value = a.summaries.map Stored.value :=
      h.results.summaries
    rw [Timeseries.ofStore_eq, Timeseries.ofStore_eq, hvalues]
  details id := by
    cases hfound : a.measurements.find? id with
    | some m =>
        rw [detail_eq hfound, detail_eq (h.measurements ▸ hfound)]
    | none =>
        rw [detail_of_find?_eq_none hfound, detail_of_find?_eq_none (h.measurements ▸ hfound)]

end Archive.SameButNames

end NetAudit
