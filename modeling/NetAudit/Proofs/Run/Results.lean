import NetAudit.Proofs.Run.Reachable
import NetAudit.Proofs.Run.Tallied

/-!
# What is stored agrees with what is reported

A run counts its records on accounts, writes summaries and entries, and reports. The three agree:
the new rows of the tables are those of the accounts (`Archive.tables_writeAll_filings`), and if all
names of summaries are distinct, each summary has just the entries that were written under it
(`filter_entries_filings`). `Report.AgreesWith` puts together what follows for the reader of a
report.
-/

namespace NetAudit

/-! ## The rows of a run

A filing puts one row into the table of summaries, or none if its account is empty, and one row for
each invalid record into the table of entries. Both tables are those of the beginning, and behind
them the rows of all filings in order. -/

theorem Archive.lookup_of_mem {ι α : Type} [DecidableEq ι] {rows : List (Stored ι α)}
    (h : (rows.map (·.id)).Nodup) {row : Stored ι α} (hrow : row ∈ rows) :
    lookup rows row.id = some row.value := by
  induction rows with
  | nil => exact absurd hrow List.not_mem_nil
  | cons first rows ih =>
      obtain ⟨hfirst, hrest⟩ := List.nodup_cons.1 h
      unfold lookup
      rcases List.mem_cons.1 hrow with rfl | hrow
      · rw [List.find?_cons_of_pos (by simp)]
        rfl
      · have hne : first.id ≠ row.id := by
          intro heq
          exact hfirst (List.mem_map.2 ⟨row, hrow, heq.symm⟩)
        rw [List.find?_cons_of_neg (by simpa using hne)]
        exact ih hrest hrow

theorem storedFrom_summaries_filings (first n : Nat) (as : List (Kind × Account)) :
    storedFrom (.nth first) n
        (((filingsFrom first n as).flatMap Filing.writes).filterMap Write.summary?) =
      (filingsFrom first n as).flatMap Filing.rows := by
  induction as generalizing n with
  | nil => rfl
  | cons e as ih =>
      rw [filingsFrom, List.flatMap_cons, List.flatMap_cons, List.filterMap_append,
        Filing.summaries_writes]
      by_cases hzero : e.2.summary.recordCount = 0
      · simp only [Account.filing, hzero, if_true, Filing.rows, Option.toList_none,
          List.map_nil, List.nil_append, List.length_nil, Nat.add_zero]
        exact ih n
      · simp only [Account.filing, hzero, if_false, Filing.rows, Option.toList_some,
          List.map_cons, List.map_nil, List.singleton_append, List.length_singleton, storedFrom]
        rw [ih (n + 1)]

theorem entries_filings (fs : List Filing) :
    (fs.flatMap Filing.writes).filterMap Write.entry? = fs.flatMap Filing.entries := by
  rw [List.filterMap_flatMap]
  congr 1
  funext f
  exact f.entries_writes

/-- **The new rows are those of the accounts.** -/
theorem Archive.tables_writeAll_filings (a : Archive) (t : Tally) :
    (a.writeAll ((t.filings a).flatMap Filing.writes)).summaries =
        a.summaries ++ (t.filings a).flatMap Filing.rows ∧
      ∃ rows, (a.writeAll ((t.filings a).flatMap Filing.writes)).entries = a.entries ++ rows ∧
        rows.map (·.value) = (t.filings a).flatMap Filing.entries := by
  refine ⟨?_, _, a.entries_writeAll _, ?_⟩
  · rw [a.summaries_writeAll]
    unfold Tally.filings
    rw [storedFrom_summaries_filings]
  · rw [map_value_storedFrom, entries_filings]

theorem Filing.filter_entries (f : Filing) (id : SummaryId) :
    f.entries.filter (fun e => e.summary = id) =
      if f.summary = some id then f.account.pending.map (·.attach id) else [] := by
  unfold entries
  cases hsummary : f.summary with
  | none => simp
  | some name =>
      by_cases hname : name = id
      · simp [hname, PendingEntry.attach]
      · simp [hname, PendingEntry.attach]

theorem Filing.summary_of_mem_entries {f : Filing} {e : Entry} (h : e ∈ f.entries) :
    f.summary = some e.summary := by
  obtain ⟨id, hid, he⟩ := List.mem_flatMap.1 h
  obtain ⟨p, -, rfl⟩ := List.mem_map.1 he
  exact Option.mem_toList.1 hid

theorem mem_rows_filings {fs : List Filing} {f : Filing} (hf : f ∈ fs) {id : SummaryId}
    (hid : f.summary = some id) : ⟨id, f.account.summary⟩ ∈ fs.flatMap Filing.rows := by
  apply List.mem_flatMap.2 ⟨f, hf, _⟩
  unfold Filing.rows
  rw [hid]
  exact List.mem_singleton_self _

theorem exists_filing_of_mem_rows {fs : List Filing} {row : Stored SummaryId Summary}
    (h : row ∈ fs.flatMap Filing.rows) :
    ∃ f ∈ fs, f.summary = some row.id ∧ row.value = f.account.summary := by
  obtain ⟨f, hf, hrow⟩ := List.mem_flatMap.1 h
  obtain ⟨id, hid, rfl⟩ := List.mem_map.1 hrow
  exact ⟨f, hf, Option.mem_toList.1 hid, rfl⟩

/-- **Each summary has the entries of its own account.** -/
theorem filter_entries_filings {fs : List Filing}
    (h : ((fs.flatMap Filing.rows).map (·.id)).Nodup) {f : Filing} (hf : f ∈ fs) {id : SummaryId}
    (hid : f.summary = some id) :
    (fs.flatMap Filing.entries).filter (fun e => e.summary = id) =
      f.account.pending.map (·.attach id) := by
  induction fs with
  | nil => exact absurd hf List.not_mem_nil
  | cons g fs ih =>
      rw [List.flatMap_cons, List.map_append, List.nodup_append] at h
      obtain ⟨-, hrest, hdisjoint⟩ := h
      have hg : g.summary = some id → id ∈ g.rows.map (·.id) := by
        intro hname
        unfold Filing.rows
        rw [hname]
        exact List.mem_singleton_self _
      rw [List.flatMap_cons, List.filter_append, g.filter_entries]
      rcases List.mem_cons.1 hf with rfl | hf
      -- Entries of later filings are under other names.
      · have hnone : (fs.flatMap Filing.entries).filter (fun e => e.summary = id) = [] := by
          rw [List.filter_eq_nil_iff]
          intro e he hsame
          obtain ⟨j, hj, he⟩ := List.mem_flatMap.1 he
          have hrow := mem_rows_filings hj (Filing.summary_of_mem_entries he)
          rw [of_decide_eq_true hsame] at hrow
          exact hdisjoint id (hg hid) id (List.mem_map_of_mem hrow) rfl
        rw [if_pos hid, hnone, List.append_nil]
      · have hother : g.summary ≠ some id := by
          intro hname
          exact hdisjoint id (hg hname) id (List.mem_map_of_mem (mem_rows_filings hf hid)) rfl
        rw [if_neg hother, List.nil_append]
        exact ih hrest hf

/-! ## Agreement

The report is read off the filings as well. So a row and what is reported of its kind come from the
same account, and they agree on all that this account has counted. -/

/-- The entry of a measurement under a summary. -/
def Measurement.entry (m : Measurement) (id : SummaryId) : Entry := ⟨id, m.id, m.errors⟩

/-- The entries that are stored under a summary. -/
def Archive.entriesOf (a : Archive) (id : SummaryId) : List Entry :=
  (a.entries.map (·.value)).filter fun e => e.summary = id

/-- The report of a run agrees with the rows that stand in the tables after it and not before. -/
structure Report.AgreesWith (rep : Report) (r : Run) (before after : Archive)
    (summaries : List (Stored SummaryId Summary)) (entries : List (Stored EntryId Entry)) :
    Prop where
  summariesAfter : after.summaries = before.summaries ++ summaries
  entriesAfter : after.entries = before.entries ++ entries
  /-- There is one new summary for each kind that was counted, in the order of kinds. -/
  ascending : summaries.Pairwise fun x y => compare x.value.kind y.value.kind = .lt
  kinds : ∀ k : Kind, (∃ row ∈ summaries, row.value.kind = k) ↔
    ∃ x, rep.kinds.find? k.tag = some x ∧ 0 < x.recordCount
  stamped : ∀ row ∈ summaries,
    row.value.windowStart = some r.window.start ∧ row.value.windowEnd = some r.window.stop
  named : ∀ (k : Kind) (x : KindReport), rep.kinds.find? k.tag = some x →
    (x.summary.isSome = true ↔ 0 < x.recordCount)
  /-- A summary that is named in the report is found, with the counts that are reported. -/
  found : ∀ (k : Kind) (x : KindReport) (id : SummaryId),
    rep.kinds.find? k.tag = some x → x.summary = some id →
      ∃ s, after.summary? id = some s ∧ ⟨id, s⟩ ∈ summaries ∧ s.kind = k ∧
        s.recordCount = x.recordCount ∧ s.errorCount = x.errorCount ∧
        s.errorCounts = x.errorCounts
  entryCount : entries.length = rep.entryCount
  errorCount : rep.entryCount = Number.total (rep.kinds.values.map KindReport.errorCount)
  errorTotal : rep.entryCount < Number.countBound → rep.entryCount = rep.errorTotal
  /-- A new entry points to the summary that is reported for the kind of its measurement. -/
  pointing : ∀ row ∈ entries, ∃ m ∈ r.records before, m.id = row.value.measurement ∧
    ∃ x, rep.kinds.find? m.kind.tag = some x ∧ x.summary = some row.value.summary
  /-- Under a new summary stand the entries of its invalid records, in the order of these. -/
  attached : ∀ row ∈ summaries,
    let ms := (before.counted (r.records before) row.value.kind).filter Measurement.isInvalid
    ms.Pairwise (fun m n => Archive.comesFirst m n = true) ∧
      after.entriesOf row.id = ms.map (·.entry row.id)
  counts : ∀ row ∈ summaries, row.value.errorCount = (after.entriesOf row.id).length ∧
    ∀ tag, row.value.errorCounts.find? tag =
      let tags := (after.entriesOf row.id).flatMap Entry.errors
      if tag ∈ tags then some (tags.count tag) else none

theorem Run.records_pairwise (r : Run) (a : Archive) :
    (r.records a).Pairwise fun m n => Archive.comesFirst m n = true := by
  rw [r.records_eq_listed]
  exact a.listed_pairwise r.query

section Agreement

variable {a b : Archive} {r : Run} {unscheduled : List Window}

/-! ### The filings of a run

What is filed is what was counted: a summary for each kind with a record in the window, and an entry
for each error of an invalid record whose device is known. -/

/-- An account has no summary just if nothing was counted on it. -/
theorem Run.counted_eq_nil_iff {f : Filing} (h : f ∈ r.filings a) :
    a.counted (r.records a) f.kind = [] ↔ f.summary = none := by
  have hsome := isSome_summary_of_mem h
  rw [(tells_of_mem_filings h).recordCount] at hsome
  rw [← Option.not_isSome_iff_eq_none, hsome, decide_eq_true_iff, List.length_pos_iff,
    Decidable.not_not]

theorem Run.pending_eq {f : Filing} (h : f ∈ r.filings a) (id : SummaryId) :
    f.account.pending.map (·.attach id) =
      ((a.counted (r.records a) f.kind).filter Measurement.isInvalid).map (·.entry id) := by
  rw [(tells_of_mem_filings h).pending, List.map_map]
  rfl

theorem Run.rows_ascending (r : Run) (a : Archive) :
    ((r.filings a).flatMap Filing.rows).Pairwise fun x y =>
      compare x.value.kind y.value.kind = .lt := by
  have hkind : ∀ f ∈ r.filings a, ∀ row ∈ f.rows, row.value.kind = f.kind := by
    intro f hf row hrow
    obtain ⟨id, -, rfl⟩ := List.mem_map.1 hrow
    exact (tells_of_mem_filings hf).kind
  rw [List.pairwise_flatMap]
  constructor
  · intro f _
    unfold Filing.rows
    cases f.summary with
    | none => exact List.Pairwise.nil
    | some id => exact List.pairwise_singleton _ _
  · apply (filings_ascending (r.tally a) a).imp_of_mem
    intro f g hf hg hlt x hx y hy
    rw [hkind f hf x hx, hkind g hg y hy]
    exact hlt

theorem Run.length_entries (r : Run) (a : Archive) :
    ((r.filings a).flatMap Filing.entries).length = entryCount (r.tally a) := by
  have heach : ∀ f ∈ r.filings a, f.entries.length = f.account.pending.length := by
    intro f hf
    unfold Filing.entries
    cases hsummary : f.summary with
    | some id => simp
    | none =>
        rw [(tells_of_mem_filings hf).pending, (counted_eq_nil_iff hf).2 hsummary]
        rfl
  have haccounts : (r.tally a).accounts.values = (r.filings a).map (·.account) := by
    unfold OrderedMap.values Run.filings
    rw [← map_filings (r.tally a) a, List.map_map]
    rfl
  unfold entryCount
  rw [Number.length_flatMap, List.map_congr_left heach, haccounts, List.map_map]
  rfl

theorem Run.map_kind_filings (r : Run) (a : Archive) :
    (r.filings a).map (·.kind) = (r.tally a).accounts.keys := by
  unfold OrderedMap.keys Run.filings
  rw [← map_filings (r.tally a) a, List.map_map]
  rfl

/-- The entries of a filing are those of the invalid records of its kind. -/
theorem Run.errors_entries {f : Filing} (hf : f ∈ r.filings a) :
    (f.entries.map fun e => (e.measurement, e.errors)) =
      ((a.counted (r.records a) f.kind).filter Measurement.isInvalid).map
        fun m => (m.id, m.errors) := by
  unfold Filing.entries
  cases hsummary : f.summary with
  | none => rw [(counted_eq_nil_iff hf).2 hsummary]; rfl
  | some id =>
      rw [Option.toList_some, List.flatMap_singleton, pending_eq hf, List.map_map]
      rfl

/-- **Every invalid record with its device has one entry**, and there are no others. -/
theorem Run.entries_perm (r : Run) (a : Archive) :
    (((r.filings a).flatMap Filing.entries).map fun e => (e.measurement, e.errors)).Perm
      (((r.records a).filter fun m => m.isInvalid && a.devices.contains m.device).map
        fun m => (m.id, m.errors)) := by
  have heach : ∀ f ∈ r.filings a, (f.entries.map fun e => (e.measurement, e.errors)) =
      (((r.records a).filter fun m => m.isInvalid && a.devices.contains m.device).filter
        fun m => m.kind = f.kind).map fun m => (m.id, m.errors) := by
    intro f hf
    have hrecords : ((r.records a).filter fun m =>
        m.isInvalid && a.devices.contains m.device).filter (fun m => m.kind = f.kind) =
          (a.counted (r.records a) f.kind).filter Measurement.isInvalid := by
      unfold Archive.counted
      rw [List.filter_filter, List.filter_filter]
      apply List.filter_congr
      intro m _
      rw [Bool.and_left_comm]
    rw [hrecords, errors_entries hf]
  have hkeys : ∀ m ∈ (r.records a).filter (fun m => m.isInvalid && a.devices.contains m.device),
      m.kind ∈ (r.tally a).accounts.keys := by
    intro m hm
    obtain ⟨hm, hboth⟩ := List.mem_filter.1 hm
    apply (r.tells_tally a).kind_mem_keys
    rw [Run.visits, scored_visits]
    exact List.mem_filter.2 ⟨hm, (Bool.and_eq_true_iff.1 hboth).2⟩
  -- The filings sort these records by kind.
  have hperm := flatMap_filter_perm (r.tally a).accounts.nodup_keys hkeys
  have hmap := hperm.map fun m => (m.id, m.errors)
  rw [← r.map_kind_filings, List.flatMap_map, List.map_flatMap] at hmap
  rw [List.map_flatMap, List.flatMap_def, List.map_congr_left heach, ← List.flatMap_def]
  exact hmap

theorem Measurement.flatMap_errors_filter (ms : List Measurement) :
    (ms.filter isInvalid).flatMap errors = ms.flatMap errors := by
  induction ms with
  | nil => rfl
  | cons m ms ih =>
      rw [List.filter_cons]
      split
      · rw [List.flatMap_cons, List.flatMap_cons, ih]
      · next hvalid =>
          have hnil : m.errors = [] := by simpa [isInvalid] using hvalid
          rw [List.flatMap_cons, hnil, List.nil_append, ih]

/-! ### The tables after a run

A run puts its filings behind what stands in the tables. New summaries have new ids, so the entries
under them can be told from those that were there before. -/

/-- To the results of one archive those of a run on another are added. -/
structure Run.Filed (r : Run) (a b : Archive) (rows : List (Stored EntryId Entry)) : Prop where
  summaries : b.summaries = a.summaries ++ (r.filings a).flatMap Filing.rows
  entries : b.entries = a.entries ++ rows
  values : rows.map (·.value) = (r.filings a).flatMap Filing.entries

theorem Run.filed_execute (r : Run) (unscheduled : List Window) (a : Archive) :
    ∃ rows, r.Filed a ((r.execute Archive.store unscheduled).perform a).state rows := by
  have hstate : ((r.execute Archive.store unscheduled).perform a).state =
      (a.afterVisits (r.visits a)).writeAll (r.writes a) :=
    congrArg Prod.snd (r.execute_archive unscheduled a)
  obtain ⟨hsummaries, hentries⟩ := a.hasResults_afterVisits (r.visits a) (r.writes a)
  obtain ⟨hnew, rows, hrows, hvalues⟩ := a.tables_writeAll_filings (r.tally a)
  rw [hstate]
  exact ⟨rows, hsummaries.trans hnew, hentries.trans hrows, hvalues⟩

namespace Run.Filed

variable {rows : List (Stored EntryId Entry)}

theorem mem_summaries (h : r.Filed a b rows) {f : Filing} (hf : f ∈ r.filings a)
    {id : SummaryId} (hid : f.summary = some id) : ⟨id, f.account.summary⟩ ∈ b.summaries := by
  rw [h.summaries]
  exact List.mem_append_right _ (mem_rows_filings hf hid)

/-- **Under a new summary stand the entries of its account**, and none that was there before. -/
theorem entriesOf_eq (h : r.Filed a b rows) (hrooted : a.Rooted)
    (hnames : (b.summaries.map (·.id)).Nodup) {f : Filing} (hf : f ∈ r.filings a)
    {id : SummaryId} (hid : f.summary = some id) :
    b.entriesOf id =
      ((a.counted (r.records a) f.kind).filter Measurement.isInvalid).map (·.entry id) := by
  rw [h.summaries, List.map_append, List.nodup_append] at hnames
  obtain ⟨-, hnew, hdisjoint⟩ := hnames
  -- An entry from before has its summary from before, and that has another name.
  have hold : (a.entries.map (·.value)).filter (fun e => e.summary = id) = [] := by
    rw [List.filter_eq_nil_iff]
    intro e he hsame
    obtain ⟨row, hrow, rfl⟩ := List.mem_map.1 he
    obtain ⟨old, hold, hname⟩ := Archive.hasSummary_iff.1 (hrooted row hrow)
    exact hdisjoint old.id (List.mem_map_of_mem hold) id
      (List.mem_map_of_mem (mem_rows_filings hf hid)) (hname.trans (of_decide_eq_true hsame))
  unfold Archive.entriesOf
  rw [h.entries, List.map_append, List.filter_append, hold, List.nil_append, h.values,
    filter_entries_filings hnew hf hid, pending_eq hf]

/-- **A new entry is that of a record of its kind.** -/
theorem exists_of_mem (h : r.Filed a b rows) {row : Stored EntryId Entry} (hrow : row ∈ rows) :
    ∃ f ∈ r.filings a, f.summary = some row.value.summary ∧
      ∃ m ∈ r.records a, m.kind = f.kind ∧ m.id = row.value.measurement := by
  have hmem : row.value ∈ (r.filings a).flatMap Filing.entries := by
    rw [← h.values]
    exact List.mem_map_of_mem hrow
  obtain ⟨f, hf, he⟩ := List.mem_flatMap.1 hmem
  have hid := Filing.summary_of_mem_entries he
  obtain ⟨id, -, he⟩ := List.mem_flatMap.1 he
  rw [pending_eq hf] at he
  obtain ⟨m, hm, he⟩ := List.mem_map.1 he
  obtain ⟨hrecord, hkind, -⟩ := Archive.kind_of_mem_counted (List.mem_filter.1 hm).1
  exact ⟨f, hf, hid, m, hrecord, hkind, congrArg Entry.measurement he⟩

/-- The report of a run agrees with the rows of its filings. -/
theorem agreesWith_report (h : r.Filed a b rows) (hrooted : a.Rooted)
    (hnames : (b.summaries.map (·.id)).Nodup) (unscheduled : List Window) :
    (r.report unscheduled (r.tally a) (r.filings a)).AgreesWith r a b
      ((r.filings a).flatMap Filing.rows) rows := by
  -- Each row and each kind in the report come from one filing. Every case below goes to that filing
  -- and reads off what its account tells.
  have hreported : ∀ f ∈ r.filings a,
      (r.report unscheduled (r.tally a) (r.filings a)).kinds.find? f.kind.tag =
        some (kindReport f.account f.summary) :=
    fun f hf => (find?_report_eq_some_iff f.kind _).2 ⟨f, hf, rfl, rfl⟩
  have hcount : (r.report unscheduled (r.tally a) (r.filings a)).entryCount =
      Number.total ((r.report unscheduled (r.tally a) (r.filings a)).kinds.values.map
        KindReport.errorCount) := by
    rw [Run.filings, total_report _ (fun x => x.summary.errorCount) fun _ _ => rfl]
    exact (r.tells_tally a).entryCount_eq
  constructor
  case summariesAfter => exact h.summaries
  case entriesAfter => exact h.entries
  case ascending => exact r.rows_ascending a
  case kinds =>
    intro k
    constructor
    · -- A filing has a row just if its account has counted something.
      rintro ⟨row, hrow, rfl⟩
      obtain ⟨f, hf, hid, hvalue⟩ := exists_filing_of_mem_rows hrow
      have hpos := isSome_summary_of_mem hf
      rw [hid] at hpos
      refine ⟨kindReport f.account f.summary, ?_, of_decide_eq_true hpos.symm⟩
      rw [hvalue, (tells_of_mem_filings hf).kind]
      exact hreported f hf
    · rintro ⟨x, hx, hpos⟩
      obtain ⟨f, hf, rfl, rfl⟩ := (find?_report_eq_some_iff k x).1 hx
      have hsome := (isSome_summary_of_mem hf).trans (decide_eq_true hpos)
      obtain ⟨id, hid⟩ := Option.isSome_iff_exists.1 hsome
      exact ⟨_, mem_rows_filings hf hid, (tells_of_mem_filings hf).kind⟩
  case stamped =>
    intro row hrow
    obtain ⟨f, hf, hid, hvalue⟩ := exists_filing_of_mem_rows hrow
    -- The window is stamped with the first record, and a filing with a row has one.
    have hne : a.counted (r.records a) f.kind ≠ [] := by
      rw [Ne, counted_eq_nil_iff hf, hid]
      exact Option.some_ne_none row.id
    have htells := tells_of_mem_filings hf
    rw [hvalue, htells.windowStart, htells.windowEnd, if_neg hne, if_neg hne]
    exact ⟨rfl, rfl⟩
  case named =>
    intro k x hx
    obtain ⟨f, hf, -, rfl⟩ := (find?_report_eq_some_iff k x).1 hx
    show f.summary.isSome = true ↔ 0 < f.account.summary.recordCount
    rw [isSome_summary_of_mem hf, decide_eq_true_iff]
  case found =>
    intro k x id hx hid
    obtain ⟨f, hf, rfl, rfl⟩ := (find?_report_eq_some_iff k x).1 hx
    exact ⟨f.account.summary, Archive.lookup_of_mem hnames (h.mem_summaries hf hid),
      mem_rows_filings hf hid, (tells_of_mem_filings hf).kind, rfl, rfl, rfl⟩
  case entryCount =>
    rw [← List.length_map (f := (·.value)), h.values]
    exact r.length_entries a
  case errorCount => exact hcount
  case errorTotal =>
    intro hbound
    show _ = Number.total _ % Number.countBound
    rw [← hcount, Nat.mod_eq_of_lt hbound]
  case pointing =>
    intro row hrow
    obtain ⟨f, hf, hid, m, hm, hkind, hmeasurement⟩ := h.exists_of_mem hrow
    exact ⟨m, hm, hmeasurement, _, hkind ▸ hreported f hf, hid⟩
  case attached =>
    intro row hrow
    obtain ⟨f, hf, hid, hvalue⟩ := exists_filing_of_mem_rows hrow
    refine ⟨((r.records_pairwise a).filter _).filter _, ?_⟩
    rw [hvalue, (tells_of_mem_filings hf).kind]
    exact h.entriesOf_eq hrooted hnames hf hid
  case counts =>
    intro row hrow
    obtain ⟨f, hf, hid, hvalue⟩ := exists_filing_of_mem_rows hrow
    have htells := tells_of_mem_filings hf
    rw [hvalue, h.entriesOf_eq hrooted hnames hf hid, htells.errorCount, htells.errorCounts]
    constructor
    · rw [List.length_map, List.countP_eq_length_filter]
    · -- The account has counted over all records, the entries are those of the invalid ones; the
      -- others have raised no tags.
      intro tag
      rw [Counts.find?_ofNames, List.flatMap_map]
      show _ = if tag ∈ List.flatMap Measurement.errors _ then
        some ((List.flatMap Measurement.errors _).count tag) else none
      rw [Measurement.flatMap_errors_filter]

end Run.Filed

end Agreement

/-- **What a run stores agrees with what it reports**, in any archive that can come about, if the
names of its summaries are distinct. -/
theorem Run.execute_agrees (r : Run) (unscheduled : List Window) {a : Archive} (h : a.Reachable)
    (hnames : (((r.execute Archive.store unscheduled).perform a).state.summaries.map
      (·.id)).Nodup) :
    ∃ rep summaries entries,
      ((r.execute Archive.store unscheduled).perform a).value = .ok rep ∧
        rep.AgreesWith r a ((r.execute Archive.store unscheduled).perform a).state
          summaries entries := by
  obtain ⟨rows, hfiled⟩ := r.filed_execute unscheduled a
  exact ⟨_, _, rows, congrArg Prod.fst (r.execute_archive unscheduled a),
    hfiled.agreesWith_report h.rooted hnames unscheduled⟩

/-- A run over the first instant of 1970. -/
def Run.ofFirstInstant : Run where
  name := "first"
  window := ⟨.epoch, { Calendar.Instant.epoch with
    nano := 1
    nano_lt := by decide
    leap_ends_minute := fun h => absurd h (by decide) }⟩
  startedAt := .epoch
  limit := none
  config := {}

/-- A phone with a ping that has no values. -/
def Archive.ofOnePing : Archive :=
  ((empty 0).insertDevice ⟨⟨"phone"⟩, none, none, none⟩).insertMeasurement
    ⟨⟨"ping"⟩, .ping, .epoch, true, .empty, .empty, ⟨"phone"⟩, none⟩

theorem Run.execute_agrees_ofOnePing :
    ∃ rep summaries entries,
      ((ofFirstInstant.execute Archive.store []).perform .ofOnePing).value = .ok rep ∧
        rep.AgreesWith ofFirstInstant .ofOnePing
          ((ofFirstInstant.execute Archive.store []).perform .ofOnePing).state summaries entries :=
  have hreachable : Archive.ofOnePing.Reachable :=
    ((Archive.Reachable.empty 0).insertDevice _).insertMeasurement _
  ofFirstInstant.execute_agrees [] hreachable (by decide +kernel)

end NetAudit
