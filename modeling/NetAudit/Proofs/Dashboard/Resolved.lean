import NetAudit.Proofs.Dashboard.Cells

/-!
# Buckets told without a cache

The buckets of some entries can be told from each entry by itself: whether it is resolved, and for
which window and kind (`View.IsAt`). The cache of summaries, the note of those that were counted and
the order in which entries come are not to be seen, but for the order of links
(`Buckets.bucketings_of_shows`).
-/

namespace NetAudit

open Calendar (Instant)

/-! ## Entries at a place

Whether an entry is at a place is decided from the view, for each entry by itself. -/

namespace View

variable {v : View} {start : Instant} {tag : String} {e : Entry}

/-- The entry is resolved, and belongs to the cell of this window and kind. -/
def IsAt (v : View) (start : Instant) (tag : String) (e : Entry) : Prop :=
  ∃ t, v.Resolves e t ∧ t.start = start ∧ t.summary.kind.tag = tag

/-- The link to the measurement of an entry, if the entry is resolved. -/
def link? (v : View) (e : Entry) : Option Link := (v.target? e).map Target.link

theorem isSome_linkAt?_iff : (v.linkAt? start tag e).isSome = true ↔ v.IsAt start tag e := by
  rw [Option.isSome_iff_exists]
  simp only [linkAt?_eq_some_iff]
  constructor
  · rintro ⟨x, t, ht, hstart, htag, -⟩
    exact ⟨t, ht, hstart, htag⟩
  · rintro ⟨t, ht, hstart, htag⟩
    exact ⟨_, t, ht, hstart, htag, rfl⟩

instance (start : Instant) (tag : String) : DecidablePred (v.IsAt start tag) := fun _ =>
  decidable_of_iff _ isSome_linkAt?_iff

theorem linkAt?_eq (v : View) (start : Instant) (tag : String) (e : Entry) :
    v.linkAt? start tag e =
      if v.IsAt start tag e then (v.link? e).map fun l => (e.summary, l) else none := by
  by_cases h : v.IsAt start tag e
  · obtain ⟨t, ht, hstart, htag⟩ := id h
    rw [ht.linkAt?_eq, if_pos ⟨hstart, htag⟩, if_pos h, link?, target?_eq_some_iff.2 ht]
    rfl
  · rw [if_neg h, ← Option.not_isSome_iff_eq_none, isSome_linkAt?_iff]
    exact h

theorem filterMap_linkAt?_eq (v : View) (start : Instant) (tag : String) (es : List Entry) :
    es.filterMap (v.linkAt? start tag) =
      (es.filter (v.IsAt start tag ·)).filterMap fun e =>
        (v.link? e).map fun l => (e.summary, l) := by
  rw [List.filterMap_filter]
  simp only [linkAt?_eq, decide_eq_true_eq]

/-- The links of a cell are those of the entries that belong to it. -/
theorem map_snd_linkAt? (v : View) (start : Instant) (tag : String) (es : List Entry) :
    (es.filterMap (v.linkAt? start tag)).map (·.2) =
      (es.filter (v.IsAt start tag ·)).filterMap v.link? := by
  rw [filterMap_linkAt?_eq, List.map_filterMap]
  simp [Function.comp_def]

/-- The summaries of a cell are those of the entries that belong to it. -/
theorem map_fst_linkAt? (v : View) (start : Instant) (tag : String) (es : List Entry) :
    (es.filterMap (v.linkAt? start tag)).map (·.1) =
      (es.filter (v.IsAt start tag ·)).map (·.summary) := by
  rw [filterMap_linkAt?_eq, List.map_filterMap, ← List.filterMap_eq_map]
  apply List.filterMap_congr
  intro e he
  obtain ⟨t, ht, -⟩ := of_decide_eq_true (List.mem_filter.1 he).2
  rw [link?, target?_eq_some_iff.2 ht]
  rfl

end View

/-! ## Cells

The links of a cell stand in the order of the entries. Its count is a sum over a set of summaries,
so it does not depend on that order. -/

namespace Cell

/-- The cells have counted the same, and have the same links, perhaps in another order. -/
structure SameButOrder (c d : Cell) : Prop where
  count : c.count = d.count
  links : c.links.Perm d.links

variable {errors : SummaryId → Nat} {xs ys : List (SummaryId × Link)}

theorem ofLinks_eq_some_iff {c : Cell} :
    ofLinks errors xs = some c ↔ xs ≠ [] ∧
      c = ⟨countSum ((xs.map (·.1)).eraseDups.map errors), xs.map (·.2)⟩ := by
  cases xs with
  | nil => simp [ofLinks]
  | cons x xs => simp [ofLinks, eq_comm]

theorem isSome_ofLinks_iff : (ofLinks errors xs).isSome = true ↔ xs ≠ [] := by
  cases xs <;> simp [ofLinks]

theorem ofLinks_perm (h : xs.Perm ys) :
    Option.Rel SameButOrder (ofLinks errors xs) (ofLinks errors ys) := by
  unfold ofLinks
  rw [h.isEmpty_eq]
  split
  · exact .none
  · refine .some ⟨?_, h.map _⟩
    exact congrArg (· % _) (Number.total_perm ((eraseDups_perm (h.map _)).map _))

end Cell

/-! ## Buckets

What is known of the cells is put in the terms of entries at a place. -/

namespace Buckets

variable {v : View} {es ds : List Entry} {b c : Buckets}

/-- The buckets are those of the entries `es`, told from each entry by itself. -/
structure Tells (v : View) (es : List Entry) (b : Buckets) : Prop where
  /-- There is a bucket for each window in which an entry is resolved, by ascending start. -/
  starts : ∀ start, start ∈ b.keys ↔ ∃ e ∈ es, ∃ t, v.Resolves e t ∧ t.start = start
  ascending : b.keys.Pairwise fun w u => compare w u = .lt
  /-- There is a cell just where an entry belongs. -/
  cells : ∀ start tag, (b.cell? start tag).isSome = true ↔ ∃ e ∈ es, v.IsAt start tag e
  links : ∀ start tag c, b.cell? start tag = some c →
    c.links = (es.filter (v.IsAt start tag ·)).filterMap v.link?
  /-- The errors of each summary behind a cell count once, as far as 64 bits can hold the sum. -/
  counts : ∀ start tag c, b.cell? start tag = some c →
    let ids := ((es.filter (v.IsAt start tag ·)).map (·.summary)).eraseDups
    Number.total (ids.map v.errorsUnder) < Number.countBound →
      c.count = Number.total (ids.map v.errorsUnder)

theorem Holds.isSome_cell?_iff (h : b.Holds v es) (start : Instant) (tag : String) :
    (b.cell? start tag).isSome = true ↔ ∃ e ∈ es, v.IsAt start tag e := by
  rw [h.cells, Cell.isSome_ofLinks_iff, ← List.length_pos_iff, List.length_pos_iff_exists_mem]
  simp only [List.mem_filterMap, ← View.isSome_linkAt?_iff, Option.isSome_iff_exists]
  constructor
  · rintro ⟨x, e, he, hx⟩
    exact ⟨e, he, x, hx⟩
  · rintro ⟨e, he, x, hx⟩
    exact ⟨x, e, he, hx⟩

theorem Holds.tells (h : b.Holds v es) : b.Tells v es where
  starts start := by
    rw [OrderedMap.mem_keys_iff, h.filled]
    simp only [h.isSome_cell?_iff]
    constructor
    · rintro ⟨tag, e, he, t, ht, hstart, -⟩
      exact ⟨e, he, t, ht, hstart⟩
    · rintro ⟨e, he, t, ht, hstart⟩
      exact ⟨t.summary.kind.tag, e, he, t, ht, hstart, rfl⟩
  ascending := b.pairwise_keys
  cells := h.isSome_cell?_iff
  links start tag c hc := by
    rw [h.cells, Cell.ofLinks_eq_some_iff] at hc
    rw [hc.2]
    exact View.map_snd_linkAt? v start tag es
  counts := by
    intro start tag c hc ids hbound
    rw [h.cells, Cell.ofLinks_eq_some_iff, View.map_fst_linkAt?] at hc
    rw [hc.2]
    exact Nat.mod_eq_of_lt hbound

/-- **The order of the entries** is to be seen in the order of links only. -/
theorem Holds.reordered (hb : b.Holds v es) (hc : c.Holds v ds) (h : es.Perm ds) :
    b.keys = c.keys ∧
      ∀ start tag, Option.Rel Cell.SameButOrder (b.cell? start tag) (c.cell? start tag) := by
  have hcells : ∀ start tag,
      Option.Rel Cell.SameButOrder (b.cell? start tag) (c.cell? start tag) := by
    intro start tag
    rw [hb.cells, hc.cells]
    exact Cell.ofLinks_perm (h.filterMap _)
  refine ⟨OrderedMap.keys_eq_of_contains fun start => ?_, hcells⟩
  rw [Bool.eq_iff_iff, hb.filled, hc.filled]
  simp only [hb.isSome_cell?_iff, hc.isSome_cell?_iff, h.mem_iff]

/-- What is promised of the buckets of entries, in a state in which a store shows `v`. -/
structure Bucketings {σ : Type} (store : Store σ) (v : View) (s : σ) : Prop where
  /-- Buckets are those that can be told from each entry by itself. -/
  told : ∀ es : List Entry, v.faultResolving es = none →
    ∃ b : Buckets, ((ofEntries store es).perform s).value = .ok b ∧ b.Tells v es
  /-- If something cannot be looked up, there are no buckets. -/
  failed : ∀ (es : List Entry) (err : StoreError), v.faultResolving es = some err →
    ((ofEntries store es).perform s).value = .error (.query err)
  /-- In another order, the entries have the same buckets, but for the order of links. -/
  reordered : ∀ es ds : List Entry, es.Perm ds → v.faultResolving es = none →
    ∃ b c : Buckets, ((ofEntries store es).perform s).value = .ok b ∧
      ((ofEntries store ds).perform s).value = .ok c ∧ b.keys = c.keys ∧
        ∀ start tag, Option.Rel Cell.SameButOrder (b.cell? start tag) (c.cell? start tag)

/-- **The buckets of entries are told without a cache.** -/
theorem bucketings_of_shows {σ : Type} {store : Store σ} {states : σ → Prop} {v : View} {s : σ}
    (h : store.Shows states v) (hs : states s) : Bucketings store v s := by
  have hvalue := fun es => (ofEntries_ensures h es).perform hs
  constructor
  case told =>
    intro es hfound
    have hes := hvalue es
    rw [hfound] at hes
    obtain ⟨b, hb, hholds⟩ := hes
    exact ⟨b, hb, hholds.tells⟩
  case failed =>
    intro es err hfault
    have hes := hvalue es
    rwa [hfault] at hes
  case reordered =>
    intro es ds hperm hfound
    -- In another order another entry may fail first, but none fails at all.
    have hfound' : v.faultResolving ds = none := by
      unfold View.faultResolving at hfound ⊢
      rw [List.findSome?_eq_none_iff] at hfound ⊢
      exact fun e he => hfound e (hperm.mem_iff.2 he)
    have hes := hvalue es
    have hds := hvalue ds
    rw [hfound] at hes
    rw [hfound'] at hds
    obtain ⟨b, hb, hbholds⟩ := hes
    obtain ⟨c, hc, hcholds⟩ := hds
    exact ⟨b, c, hb, hc, hbholds.reordered hcholds hperm⟩

end Buckets

/-- A ping, and the summary of a run that has found two errors in it. -/
def Archive.ofFlaggedPing : Archive :=
  { (empty 0).insertMeasurement
      ⟨⟨"ping"⟩, .ping, .epoch, true, .empty, .empty, ⟨"phone"⟩, none⟩ with
    summaries :=
      [⟨.nth 0 0, { Summary.new .ping with windowStart := some .epoch, errorCount := 2 }⟩] }

theorem Buckets.bucketings_ofFlaggedPing :
    let a := Archive.ofFlaggedPing
    a.view.IsAt .epoch "ping" ⟨.nth 0 0, ⟨"ping"⟩, []⟩ ∧ Bucketings Archive.store a.view a :=
  ⟨⟨⟨_, .epoch, _⟩, ⟨rfl, rfl, _, rfl, rfl⟩, rfl, rfl⟩,
    bucketings_of_shows (Archive.store_shows _) rfl⟩

/-- An entry that stands twice has two links, and its summary counts once. -/
example :
    (((Buckets.ofEntries Archive.store
      [⟨.nth 0 0, ⟨"ping"⟩, []⟩, ⟨.nth 0 0, ⟨"pong"⟩, []⟩, ⟨.nth 0 0, ⟨"ping"⟩, []⟩]).perform
        .ofFlaggedPing).value.map fun b => b.cell? .epoch "ping") =
      .ok (some ⟨2, [⟨⟨"ping"⟩, ⟨"phone"⟩⟩, ⟨⟨"ping"⟩, ⟨"phone"⟩⟩]⟩) := by decide +kernel

end NetAudit
