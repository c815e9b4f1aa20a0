import NetAudit.Dashboard.Buckets
import NetAudit.Proofs.Counts
import NetAudit.Proofs.Lists
import NetAudit.Proofs.Store.LookUps

/-!
# What the cells of an index hold

An index of entries is filled one entry at a time, with a cache of summaries and a note of those
whose errors were counted. Neither is to be seen in the result: a cell holds a link for each entry
that belongs to it, and has counted each summary of these entries once (`Cell.ofLinks`).
`BucketIndex.Indexes` is what one entry more preserves.
-/

namespace NetAudit

open Calendar (Instant)

/-! ## Cells by their places

Buckets are a table of tables. A place in both is a window and a kind, and `Buckets.cell?` is the
cell there. No inner table is empty. -/

namespace Buckets

/-- The cell of a window and a kind. -/
def cell? (b : Buckets) (start : Instant) (tag : String) : Option Cell :=
  (b.find? start).bind fun bucket => bucket.find? tag

theorem cell?_add (b : Buckets) (start w : Instant) (tag t : String) (errors : Nat) (link : Link) :
    (b.add start tag errors link).cell? w t =
      if w = start ∧ t = tag then some (((b.cell? w t).getD .empty).add errors link)
      else b.cell? w t := by
  unfold cell? add
  rw [OrderedMap.find?_update]
  by_cases hstart : w = start
  · subst hstart
    rw [if_pos rfl, Option.bind_some, OrderedMap.find?_update]
    by_cases htag : t = tag
    · subst htag
      rw [if_pos rfl, if_pos ⟨rfl, rfl⟩]
      cases b.find? w <;> rfl
    · rw [if_neg htag, if_neg fun h => htag h.2]
      cases b.find? w <;> rfl
  · rw [if_neg hstart, if_neg fun h => hstart h.1]

/-- There is a bucket just where there is a cell. -/
def Filled (b : Buckets) : Prop :=
  ∀ start, b.contains start = true ↔ ∃ tag, (b.cell? start tag).isSome = true

theorem filled_empty : Filled .empty := by
  intro start
  constructor
  · exact fun h => nomatch h
  · rintro ⟨tag, h⟩
    exact nomatch h

theorem Filled.add {b : Buckets} (h : b.Filled) (start : Instant) (tag : String) (errors : Nat)
    (link : Link) : (b.add start tag errors link).Filled := by
  intro w
  have hcontains : (b.add start tag errors link).contains w = (w == start || b.contains w) :=
    OrderedMap.contains_insert _ _ _ _
  rw [hcontains, Bool.or_eq_true, beq_iff_eq, h w]
  simp only [cell?_add]
  by_cases hw : w = start
  · simp only [hw, true_or, true_and, true_iff]
    exact ⟨tag, by rw [if_pos rfl]; rfl⟩
  · simp only [hw, false_or, false_and, if_false]

end Buckets

/-! ## What belongs to a cell

An entry belongs to a cell if its summary is there with a window, and its measurement is there as
well (`View.Resolves`). All of this is looked up in a view. -/

/-- What an entry points to: its summary, the start of the window of that, and its measurement. -/
structure Target where
  summary : Summary
  start : Instant
  link : Link

namespace View

variable (v : View)

/-- What an entry points to, if all of it is there. The measurement is looked up last, and only if
the summary has a window. -/
def resolve (e : Entry) : Except StoreError (Option Target) :=
  match v.summary e.summary with
  | .error err => .error err
  | .ok none => .ok none
  | .ok (some s) =>
    match s.windowStart with
    | none => .ok none
    | some start => (v.measurement e.measurement).map fun found =>
        found.map fun m => ⟨s, start, ⟨m.id, m.device⟩⟩

/-- Why the first look-up for some entries fails that does. -/
def faultResolving (es : List Entry) : Option StoreError :=
  es.findSome? fun e => faultOf (v.resolve e)

/-- What an entry points to, if all of it can be found. -/
def target? (e : Entry) : Option Target := foundIn (v.resolve e)

/-- What an entry puts into the cell of a window and a kind. -/
def linkAt? (start : Instant) (tag : String) (e : Entry) : Option (SummaryId × Link) :=
  (v.target? e).bind fun t =>
    if t.start = start ∧ t.summary.kind.tag = tag then some (e.summary, t.link) else none

/-- The errors that a summary has counted. -/
def errorsUnder (id : SummaryId) : Nat := ((foundIn (v.summary id)).map Summary.errorCount).getD 0

/-- An entry is resolved: its summary is there and has a window, and its measurement is there. -/
structure Resolves (e : Entry) (t : Target) : Prop where
  summary : v.summary e.summary = .ok (some t.summary)
  start : t.summary.windowStart = some t.start
  link : ∃ m, v.measurement e.measurement = .ok (some m) ∧ t.link = ⟨m.id, m.device⟩

variable {v}

theorem target?_eq_some_iff {e : Entry} {t : Target} : v.target? e = some t ↔ v.Resolves e t := by
  unfold target? resolve
  constructor
  · intro h
    rcases hs : v.summary e.summary with err | _ | s <;> simp only [hs] at h
    · cases h
    · cases h
    · cases hstart : s.windowStart with
      | none =>
          simp only [hstart] at h
          cases h
      | some start =>
          simp only [hstart] at h
          rcases hm : v.measurement e.measurement with err | _ | m <;> rw [hm] at h <;> cases h
          exact ⟨hs, hstart, m, hm, rfl⟩
  · rintro ⟨hsummary, hstart, m, hm, hlink⟩
    simp only [hsummary, hstart, hm, Except.map, Option.map_some, foundIn, ← hlink]

theorem Resolves.errorsUnder_eq {e : Entry} {t : Target} (h : v.Resolves e t) :
    v.errorsUnder e.summary = t.summary.errorCount := by
  unfold errorsUnder
  rw [h.summary]
  rfl

/-- Entries of one summary belong to one cell. -/
theorem Resolves.place_eq {e f : Entry} {t u : Target} (he : v.Resolves e t) (hf : v.Resolves f u)
    (h : e.summary = f.summary) : t.summary = u.summary ∧ t.start = u.start := by
  have hsummary : t.summary = u.summary :=
    Option.some.inj (Except.ok.inj (he.summary.symm.trans (h ▸ hf.summary)))
  have hstart := he.start
  rw [hsummary, hf.start] at hstart
  exact ⟨hsummary, (Option.some.inj hstart).symm⟩

theorem linkAt?_eq_some_iff {start : Instant} {tag : String} {e : Entry} {x : SummaryId × Link} :
    v.linkAt? start tag e = some x ↔ ∃ t, v.Resolves e t ∧ t.start = start ∧
      t.summary.kind.tag = tag ∧ x = (e.summary, t.link) := by
  unfold linkAt?
  rw [Option.bind_eq_some_iff]
  constructor
  · rintro ⟨t, ht, hx⟩
    obtain ⟨⟨hstart, htag⟩, hx⟩ := Option.ite_none_right_eq_some.1 hx
    exact ⟨t, target?_eq_some_iff.1 ht, hstart, htag, (Option.some.inj hx).symm⟩
  · rintro ⟨t, ht, hstart, htag, rfl⟩
    exact ⟨t, target?_eq_some_iff.2 ht, by rw [if_pos ⟨hstart, htag⟩]⟩

/-- An entry that is resolved belongs to one cell. -/
theorem Resolves.linkAt?_eq {e : Entry} {t : Target} (h : v.Resolves e t) (start : Instant)
    (tag : String) : v.linkAt? start tag e =
      if t.start = start ∧ t.summary.kind.tag = tag then some (e.summary, t.link) else none := by
  unfold linkAt?
  rw [target?_eq_some_iff.2 h, Option.bind_some]

/-- An entry that is not belongs to none. -/
theorem linkAt?_of_target?_eq_none {e : Entry} (h : v.target? e = none) (start : Instant)
    (tag : String) : v.linkAt? start tag e = none := by
  unfold linkAt?
  rw [h, Option.bind_none]

end View

/-! ## What a cell holds

A cell is made from its links in order. It counts the errors under each of their summaries once. -/

/-- The cell with these links, each under its summary. There is none without links, and of each
summary the errors count once. -/
def Cell.ofLinks (errors : SummaryId → Nat) (xs : List (SummaryId × Link)) : Option Cell :=
  if xs.isEmpty then none
  else some ⟨countSum ((xs.map (·.1)).eraseDups.map errors), xs.map (·.2)⟩

/-- **A link more**: its summary is counted unless it was counted before. -/
theorem Cell.ofLinks_concat (errors : SummaryId → Nat) (xs : List (SummaryId × Link))
    (x : SummaryId × Link) : ofLinks errors (xs ++ [x]) =
      some (((ofLinks errors xs).getD .empty).add
        (if x.1 ∈ xs.map (·.1) then 0 else errors x.1) x.2) := by
  -- Whatever the cell was, this is what it had counted.
  have hbefore : (ofLinks errors xs).getD .empty =
      ⟨countSum ((xs.map (·.1)).eraseDups.map errors), xs.map (·.2)⟩ := by
    cases xs <;> rfl
  have hafter : ofLinks errors (xs ++ [x]) =
      some ⟨countSum (((xs ++ [x]).map (·.1)).eraseDups.map errors), (xs ++ [x]).map (·.2)⟩ := by
    cases xs <;> rfl
  rw [hafter, hbefore, add, List.map_append, List.map_append, List.map_singleton,
    List.map_singleton, eraseDups_concat]
  by_cases hold : x.1 ∈ xs.map (·.1)
  · rw [if_pos hold, if_pos hold]
    simp [countSum, Number.total]
  · rw [if_neg hold, if_neg hold, List.map_append, List.map_singleton, countSum_concat]

/-! ## One entry after the other

`BucketIndex.Indexes` is the invariant. The cache agrees with the view, the note has the summaries
of the entries that were resolved, and each cell holds what belongs to it. -/

namespace BucketIndex

/-- The index is that of the entries `es`. -/
structure Indexes (v : View) (es : List Entry) (x : BucketIndex) : Prop where
  known : ∀ id found, x.known.lookup id = some found → v.summary id = .ok found
  counted : ∀ id, id ∈ x.counted ↔ ∃ e ∈ es, ∃ t, v.Resolves e t ∧ e.summary = id
  filled : x.buckets.Filled
  cells : ∀ start tag, x.buckets.cell? start tag =
    Cell.ofLinks v.errorsUnder (es.filterMap (v.linkAt? start tag))

theorem indexes_empty (v : View) : empty.Indexes v [] where
  known _ _ h := nomatch h
  counted id := by simp [empty]
  filled := Buckets.filled_empty
  cells _ _ := rfl

variable {σ : Type} {store : Store σ} {states : σ → Prop} {v : View} {es : List Entry}
  {x : BucketIndex} {e : Entry}

/-- A summary is what the store has, whether it was looked up before or not. -/
theorem summary_ensures (hv : store.Shows states v) (h : x.Indexes v es) (id : SummaryId) :
    (x.summary store id).Ensures states fun r => match v.summary id with
      | .error err => r = .error (.query err)
      | .ok found => ∃ y, r = .ok (found, y) ∧ y.Indexes v es := by
  unfold summary
  cases hknown : x.known.lookup id with
  | some found =>
      rw [h.known id found hknown]
      exact .pure ⟨x, rfl, h⟩
  | none =>
      refine .bind (.lookUp (hv.summary id) ?_)
      cases hfound : v.summary id with
      | error err => rfl
      | ok found =>
          -- The summary enters the cache, which agrees with the view on all others already.
          refine .pure ⟨_, rfl, ?_, h.counted, h.filled, h.cells⟩
          intro j other hother
          rw [List.lookup_cons] at hother
          cases hj : j == id with
          | true =>
              rw [hj] at hother
              rw [eq_of_beq hj, hfound]
              exact congrArg Except.ok (Option.some.inj hother)
          | false =>
              rw [hj] at hother
              exact h.known j other hother

/-- An entry that points to nothing changes nothing. -/
theorem Indexes.leave (h : x.Indexes v es) (he : v.target? e = none) :
    x.Indexes v (es ++ [e]) where
  known := h.known
  counted id := by
    have hunresolved : ∀ t, ¬v.Resolves e t := by
      intro t ht
      rw [View.target?_eq_some_iff.2 ht] at he
      cases he
    rw [h.counted]
    simp [or_and_right, exists_or, hunresolved]
  filled := h.filled
  cells start tag := by
    rw [List.filterMap_append,
      List.filterMap_cons_none (View.linkAt?_of_target?_eq_none he start tag), List.filterMap_nil,
      List.append_nil]
    exact h.cells start tag

/-- A summary that was counted at all was counted for its cell. -/
theorem Indexes.counted_iff (h : x.Indexes v es) {t : Target} (he : v.Resolves e t) :
    e.summary ∈ x.counted ↔
      e.summary ∈ (es.filterMap (v.linkAt? t.start t.summary.kind.tag)).map (·.1) := by
  rw [h.counted, List.mem_map]
  constructor
  · rintro ⟨f, hf, u, hu, hsame⟩
    obtain ⟨hsummary, hstart⟩ := hu.place_eq he hsame
    refine ⟨(f.summary, u.link), List.mem_filterMap.2 ⟨f, hf, ?_⟩, hsame⟩
    exact View.linkAt?_eq_some_iff.2 ⟨u, hu, hstart, by rw [hsummary], rfl⟩
  · rintro ⟨y, hy, hid⟩
    obtain ⟨f, hf, hlink⟩ := List.mem_filterMap.1 hy
    obtain ⟨u, hu, -, -, rfl⟩ := View.linkAt?_eq_some_iff.1 hlink
    exact ⟨f, hf, u, hu, hid⟩

/-- **An entry is entered in its cell**, and no other cell changes. -/
theorem Indexes.enter (h : x.Indexes v es) {t : Target} (he : v.Resolves e t) :
    (x.enter t.start e.summary t.summary t.link).Indexes v (es ++ [e]) where
  known := h.known
  counted id := by
    have hresolved : ∃ u, v.Resolves e u := ⟨t, he⟩
    show id ∈ e.summary :: x.counted ↔ _
    rw [List.mem_cons, h.counted]
    simp [or_and_right, exists_or, hresolved, eq_comm, or_comm]
  filled := h.filled.add _ _ _ _
  cells start tag := by
    show (x.buckets.add _ _ _ _).cell? start tag = _
    rw [Buckets.cell?_add, List.filterMap_append]
    -- Only the cell at the place of the entry changes. Its summary adds its errors unless the note
    -- has it already.
    by_cases hplace : start = t.start ∧ tag = t.summary.kind.tag
    · obtain ⟨rfl, rfl⟩ := hplace
      have hlink : v.linkAt? t.start t.summary.kind.tag e = some (e.summary, t.link) := by
        rw [he.linkAt?_eq, if_pos ⟨rfl, rfl⟩]
      rw [if_pos ⟨rfl, rfl⟩, List.filterMap_cons_some hlink, List.filterMap_nil,
        Cell.ofLinks_concat, h.cells, he.errorsUnder_eq]
      simp only [h.counted_iff he]
    · have hnone : v.linkAt? start tag e = none := by
        rw [he.linkAt?_eq, if_neg]
        rintro ⟨rfl, rfl⟩
        exact hplace ⟨rfl, rfl⟩
      rw [if_neg hplace, List.filterMap_cons_none hnone, List.filterMap_nil, List.append_nil]
      exact h.cells start tag

/-- **One entry more**, unless it cannot be looked up. -/
theorem addEntry_ensures (hv : store.Shows states v) (h : x.Indexes v es) (e : Entry) :
    (x.addEntry store e).Ensures states fun r => match faultOf (v.resolve e) with
      | some err => r = .error (.query err)
      | none => ∃ y, r = .ok y ∧ y.Indexes v (es ++ [e]) := by
  unfold addEntry
  refine .bind ((summary_ensures hv h e.summary).mono fun r hr => ?_)
  -- The look-ups are made in order: the summary, and the measurement only if that has a window.
  rcases hs : v.summary e.summary with err | _ | s
  · rw [hs] at hr
    simp only [hr, View.resolve, hs, faultOf]
  · rw [hs] at hr
    obtain ⟨y, rfl, hy⟩ := hr
    have hresolve : v.resolve e = .ok none := by simp only [View.resolve, hs]
    rw [hresolve]
    exact .bind (.log (.pure ⟨y, rfl, hy.leave (congrArg foundIn hresolve)⟩))
  · rw [hs] at hr
    obtain ⟨y, rfl, hy⟩ := hr
    show Attempt.Ensures (match s.windowStart with | none => _ | some start => _) _ _
    cases hstart : s.windowStart with
    | none =>
        have hresolve : v.resolve e = .ok none := by simp only [View.resolve, hs, hstart]
        rw [hresolve]
        exact .pure ⟨y, rfl, hy.leave (congrArg foundIn hresolve)⟩
    | some start =>
        have hresolve : v.resolve e = (v.measurement e.measurement).map fun found =>
            found.map fun m => ⟨s, start, ⟨m.id, m.device⟩⟩ := by
          simp only [View.resolve, hs, hstart]
        refine .bind (.lookUp (hv.measurement e.measurement) ?_)
        rcases hm : v.measurement e.measurement with err | _ | m <;> rw [hm] at hresolve <;>
          rw [hresolve]
        · rfl
        · exact .bind (.log (.pure ⟨y, rfl, hy.leave (congrArg foundIn hresolve)⟩))
        · have htarget : v.Resolves e ⟨s, start, ⟨m.id, m.device⟩⟩ := ⟨hs, hstart, m, hm, rfl⟩
          exact .pure ⟨_, rfl, hy.enter htarget⟩

theorem foldlM_addEntry_ensures (hv : store.Shows states v) (h : x.Indexes v es)
    (rest : List Entry) : (rest.foldlM (addEntry store) x).Ensures states fun r =>
      match v.faultResolving rest with
      | some err => r = .error (.query err)
      | none => ∃ y, r = .ok y ∧ y.Indexes v (es ++ rest) := by
  induction rest generalizing es x with
  | nil => exact .pure ⟨x, rfl, by rwa [List.append_nil]⟩
  | cons e rest ih =>
      rw [List.foldlM_cons, View.faultResolving, List.findSome?_cons]
      rw [← View.faultResolving]
      refine .bind ((addEntry_ensures hv h e).mono fun r hr => ?_)
      cases hfault : faultOf (v.resolve e) with
      | some err =>
          rw [hfault] at hr
          rw [hr]
      | none =>
          rw [hfault] at hr
          obtain ⟨y, rfl, hy⟩ := hr
          have hrest := ih hy
          rwa [List.append_assoc] at hrest

end BucketIndex

namespace Buckets

variable {σ : Type} {store : Store σ} {states : σ → Prop} {v : View}

/-- The buckets are those of the entries `es`. -/
structure Holds (v : View) (es : List Entry) (b : Buckets) : Prop where
  filled : b.Filled
  cells : ∀ start tag,
    b.cell? start tag = Cell.ofLinks v.errorsUnder (es.filterMap (v.linkAt? start tag))

/-- **The buckets of entries hold what these point to.** -/
theorem ofEntries_ensures (hv : store.Shows states v) (es : List Entry) :
    (ofEntries store es).Ensures states fun r => match v.faultResolving es with
      | some err => r = .error (.query err)
      | none => ∃ b : Buckets, r = .ok b ∧ b.Holds v es := by
  refine .bind ((BucketIndex.foldlM_addEntry_ensures hv (BucketIndex.indexes_empty v) es).mono
    fun r hr => ?_)
  cases hfault : v.faultResolving es with
  | some err =>
      rw [hfault] at hr
      rw [hr]
  | none =>
      rw [hfault] at hr
      obtain ⟨x, rfl, hx⟩ := hr
      exact .pure ⟨x.buckets, rfl, hx.filled, hx.cells⟩

/-- **The buckets of a store hold what its first entries point to.** -/
theorem ofStore_ensures (hv : store.Shows states v) (limit : Nat) :
    (ofStore store limit).Ensures states fun r => match v.entries limit with
      | .error err => r = .error (.query err)
      | .ok rows => match v.faultResolving (rows.map Stored.value) with
        | some err => r = .error (.query err)
        | none => ∃ b : Buckets, r = .ok b ∧ b.Holds v (rows.map Stored.value) := by
  refine .bind (.lookUp (hv.entries limit) ?_)
  cases v.entries limit with
  | error err => rfl
  | ok rows => exact ofEntries_ensures hv _

end Buckets

/-! ## The buckets of an archive

On an archive no look-up fails, so what belongs to a cell can be said of the archive itself. -/

namespace Archive

variable (a : Archive)

/-- What an entry points to, if all of it can be found. -/
def target? (e : Entry) : Option Target := do
  let s ← a.summary? e.summary
  let start ← s.windowStart
  let m ← a.measurements.find? e.measurement
  return ⟨s, start, ⟨m.id, m.device⟩⟩

/-- What an entry puts into the cell of a window and a kind. -/
def linkAt? (start : Instant) (tag : String) (e : Entry) : Option (SummaryId × Link) :=
  (a.target? e).bind fun t =>
    if t.start = start ∧ t.summary.kind.tag = tag then some (e.summary, t.link) else none

/-- The errors that a summary has counted. -/
def errorsUnder (id : SummaryId) : Nat := ((a.summary? id).map Summary.errorCount).getD 0

/-- In an archive no look-up fails. -/
theorem resolve_view (e : Entry) : a.view.resolve e = .ok (a.target? e) := by
  unfold View.resolve target?
  cases hs : a.summary? e.summary with
  | none =>
      have hview : a.view.summary e.summary = .ok none := congrArg Except.ok hs
      rw [hview]
      rfl
  | some s =>
      have hview : a.view.summary e.summary = .ok (some s) := congrArg Except.ok hs
      rw [hview]
      cases hstart : s.windowStart with
      | none => simp [hstart]
      | some start =>
          have hmeasurement : a.view.measurement e.measurement =
            .ok (a.measurements.find? e.measurement) := rfl
          simp only [hstart, hmeasurement, Option.bind_eq_bind, Option.bind_some]
          cases a.measurements.find? e.measurement <;> rfl

theorem linkAt?_view (start : Instant) (tag : String) :
    a.view.linkAt? start tag = a.linkAt? start tag := by
  funext e
  unfold View.linkAt? View.target? linkAt?
  rw [resolve_view]
  rfl

theorem faultResolving_view (es : List Entry) : a.view.faultResolving es = none := by
  unfold View.faultResolving
  rw [List.findSome?_eq_none_iff]
  intro e _
  rw [resolve_view]
  rfl

end Archive

/-- The place is empty, or its cell holds the links `xs` and has counted their summaries once. -/
inductive Cell.Holds (a : Archive) : Option Cell → List (SummaryId × Link) → Prop where
  | nothing : Holds a none []
  | links {c : Cell} {xs : List (SummaryId × Link)} (ids : List SummaryId) (hne : xs ≠ [])
    (hlinks : c.links = xs.map (·.2)) (hnodup : ids.Nodup)
    (hids : ∀ id, id ∈ ids ↔ id ∈ xs.map (·.1))
    (hcount : c.count = countSum (ids.map a.errorsUnder)) : Holds a (some c) xs

/-- There is a cell just where there are links. -/
theorem Cell.Holds.isSome_iff {a : Archive} {c : Option Cell} {xs : List (SummaryId × Link)}
    (h : Holds a c xs) : c.isSome = true ↔ 0 < xs.length := by
  cases h with
  | nothing => simp
  | links ids hne => simp [List.length_pos_iff.2 hne]

theorem Cell.holds_ofLinks (a : Archive) :
    ∀ xs : List (SummaryId × Link), Holds a (ofLinks a.errorsUnder xs) xs
  | [] => .nothing
  | x :: xs => .links ((x :: xs).map (·.1)).eraseDups (List.cons_ne_nil x xs) rfl
      (nodup_eraseDups _) (fun _ => List.mem_eraseDups) rfl

/-- **The buckets of an archive hold what its first entries point to.** -/
theorem Buckets.ofStore_outcome (limit : Nat) (a : Archive) :
    ∃ b : Buckets, (ofStore Archive.store limit).outcome a = (.ok b, a) ∧ ∀ start tag,
      Cell.Holds a (b.cell? start tag)
        (((a.entries.take limit).map Stored.value).filterMap (a.linkAt? start tag)) := by
  obtain ⟨hstate, hanswer⟩ := ofStore_ensures a.store_shows limit a rfl
  have hrows : a.view.entries limit = .ok (a.entries.take limit) := rfl
  simp only [hrows, Archive.faultResolving_view] at hanswer
  obtain ⟨b, hvalue, hb⟩ := hanswer
  refine ⟨b, Prod.ext hvalue hstate, fun start tag => ?_⟩
  rw [hb.cells, Archive.linkAt?_view]
  exact Cell.holds_ofLinks a _

end NetAudit
