import Mathlib.Data.List.Nodup
import NetAudit.Proofs.Dashboard.Cells
import NetAudit.Proofs.Run.Aftermath

/-!
# The buckets of time agree with the runs

A cell counts the errors of each summary once, and holds a link for each entry. That both come to
the same number is due to the runs: each writes just as many entries under a summary as the summary
counts errors (`Archive.Accounted`), and names no two summaries alike. So whatever runs were made,
the cell of a window and a kind counts what all their summaries of that window and kind have
counted (`Buckets.ofStore_agreesWith`).
-/

namespace NetAudit

open Calendar (Instant)

/-! ## Archives with their runs

An archive is accounted for (`Archive.Accounted`) if its summaries and entries are those of the runs
that were made on it. Every run and every delivery keeps it so. -/

/-- The archive comes about by deliveries, by writes of measurements, and by the runs `hist`, of
which each stands with the archive that it began with. -/
inductive Archive.FromRuns : List (Run × Archive) → Archive → Prop where
  | empty (first : Nat) : FromRuns [] (.empty first)
  | insertDevice {hist : List (Run × Archive)} {a : Archive} (h : FromRuns hist a)
    (d : DeviceInfo) : FromRuns hist (a.insertDevice d)
  | insertTask {hist : List (Run × Archive)} {a : Archive} (h : FromRuns hist a) (t : TaskInfo) :
    FromRuns hist (a.insertTask t)
  | insertMeasurement {hist : List (Run × Archive)} {a : Archive} (h : FromRuns hist a)
    (m : Measurement) : FromRuns hist (a.insertMeasurement m)
  | persistMeasurement {hist : List (Run × Archive)} {a : Archive} (h : FromRuns hist a)
    (m : Measurement) : FromRuns hist (store.persistMeasurement m a).2
  | run {hist : List (Run × Archive)} {a : Archive} (h : FromRuns hist a) (r : Run)
    (unscheduled : List Window) :
    FromRuns (hist ++ [(r, a)]) ((r.execute store unscheduled).perform a).state

/-- A run over a window that starts at `start` found an invalid record of the kind. -/
def Run.Found (hist : List (Run × Archive)) (start : Instant) (k : Kind) : Prop :=
  ∃ p ∈ hist, p.1.window.start = start ∧
    ∃ m ∈ p.2.counted (p.1.records p.2) k, m.isInvalid = true

/-- The summaries of a window and a kind. -/
def Archive.summariesAt (a : Archive) (start : Instant) (k : Kind) :
    List (Stored SummaryId Summary) :=
  a.summaries.filter fun row => row.value.windowStart = some start && row.value.kind = k

/-- All results come from the runs `hist`, and each summary counts its entries. -/
structure Archive.Accounted (hist : List (Run × Archive)) (a : Archive) : Prop where
  rooted : a.Rooted
  stored : ∀ row ∈ a.entries, a.measurements.contains row.value.measurement = true
  stamped : ∀ row ∈ a.summaries, row.value.windowStart.isSome = true
  counted : ∀ row ∈ a.summaries, row.value.errorCount = (a.entriesOf row.id).length
  found : ∀ start k, (∃ row ∈ a.summariesAt start k, 0 < row.value.errorCount) ↔
    Run.Found hist start k

namespace Archive.Accounted

variable {hist : List (Run × Archive)} {a b : Archive}

theorem empty (first : Nat) : Accounted [] (.empty first) where
  rooted _ hrow := absurd hrow List.not_mem_nil
  stored _ hrow := absurd hrow List.not_mem_nil
  stamped _ hrow := absurd hrow List.not_mem_nil
  counted _ hrow := absurd hrow List.not_mem_nil
  found start k := by
    constructor
    · rintro ⟨row, hrow, -⟩
      exact absurd hrow List.not_mem_nil
    · rintro ⟨p, hp, -⟩
      exact absurd hp List.not_mem_nil

/-- Results stay accounted for as long as they stay and no measurement is lost. -/
theorem of_frame (h : Accounted hist a) (hsummaries : b.summaries = a.summaries)
    (hentries : b.entries = a.entries)
    (hkept : ∀ id, a.measurements.contains id = true → b.measurements.contains id = true) :
    Accounted hist b where
  rooted := h.rooted.of_frame hsummaries hentries
  stored row hrow := hkept _ (h.stored row (hentries ▸ hrow))
  stamped row hrow := h.stamped row (hsummaries ▸ hrow)
  counted row hrow := by
    rw [h.counted row (hsummaries ▸ hrow), entriesOf, entriesOf, hentries]
  found start k := by
    rw [summariesAt, hsummaries]
    exact h.found start k

theorem insertMeasurement (h : Accounted hist a) (m : Measurement) :
    Accounted hist (a.insertMeasurement m) := by
  refine h.of_frame rfl rfl fun id hid => ?_
  show (a.measurements.insert m.id m).contains id = true
  rw [OrderedMap.contains_insert, hid, Bool.or_true]

/-- A new summary of a run counts errors just if the run found some. -/
theorem exists_summary_iff {rep : Report} {r : Run} {x : Batch}
    (hagrees : rep.AgreesWith r a b x.summaries x.entries) (htallies : rep.Tallies a (r.records a))
    (start : Instant) (k : Kind) :
    (∃ row ∈ x.summaries, row.value.windowStart = some start ∧ row.value.kind = k ∧
        0 < row.value.errorCount) ↔ Run.Found [(r, a)] start k := by
  have hcount : ∀ row ∈ x.summaries, (0 < row.value.errorCount ↔
      ∃ m ∈ a.counted (r.records a) row.value.kind, m.isInvalid = true) := by
    intro row hrow
    obtain ⟨-, hattached⟩ := hagrees.attached row hrow
    rw [(hagrees.counts row hrow).1, hattached, List.length_map, List.length_pos_iff_exists_mem]
    simp only [List.mem_filter]
  unfold Run.Found
  simp only [List.mem_singleton, exists_eq_left]
  constructor
  · rintro ⟨row, hrow, hstart, rfl, hpos⟩
    rw [(hagrees.stamped row hrow).1] at hstart
    exact ⟨Option.some.inj hstart, (hcount row hrow).1 hpos⟩
  · rintro ⟨rfl, m, hm, hinvalid⟩
    obtain ⟨hrecord, hkind, hdevice⟩ := kind_of_mem_counted hm
    -- The kind of the record is reported, with at least this record.
    have hcontains := (htallies.kinds k.tag).2 (.inr ⟨m, hrecord, hdevice, by rw [hkind]⟩)
    obtain ⟨y, hy⟩ := Option.isSome_iff_exists.1 hcontains
    have hpos : 0 < y.recordCount := by
      rw [(htallies.kind k y hy).recordCount]
      exact List.length_pos_of_mem hm
    obtain ⟨row, hrow, rfl⟩ := (hagrees.kinds k).2 ⟨y, hy, hpos⟩
    exact ⟨row, hrow, (hagrees.stamped row hrow).1, rfl, (hcount row hrow).2 ⟨m, hm, hinvalid⟩⟩

/-- The entries of a run stand under its own summaries, which have other names than the old. -/
theorem entriesOf_leave {rep : Report} {r : Run}
    (hagrees : rep.AgreesWith r a (r.leave a) (r.batch a).summaries (r.batch a).entries)
    (hnames : ((r.leave a).summaries.map (·.id)).Nodup) {row : Stored SummaryId Summary}
    (hrow : row ∈ a.summaries) : (r.leave a).entriesOf row.id = a.entriesOf row.id := by
  have hnew : ((r.batch a).entries.map (·.value)).filter (fun e => e.summary = row.id) = [] := by
    rw [List.filter_eq_nil_iff]
    intro e he hsame
    obtain ⟨entry, hentry, rfl⟩ := List.mem_map.1 he
    obtain ⟨s, hs, hid, -⟩ := r.exists_summary_of_mem_batch a hentry
    rw [hagrees.summariesAfter, List.map_append, List.nodup_append] at hnames
    exact hnames.2.2 row.id (List.mem_map_of_mem hrow) s.id (List.mem_map_of_mem hs)
      (hid.trans (of_decide_eq_true hsame)).symm
  rw [entriesOf, entriesOf, hagrees.entriesAfter, List.map_append, List.filter_append, hnew,
    List.append_nil]

/-- **A run keeps results accounted for.** -/
theorem leave (h : Accounted hist a) (r : Run)
    (hnames : ((r.leave a).summaries.map (·.id)).Nodup) :
    Accounted (hist ++ [(r, a)]) (r.leave a) := by
  have hfiled := r.filed_leave a
  have hagrees : (r.reportOn a []).AgreesWith r a (r.leave a) (r.batch a).summaries
      (r.batch a).entries := hfiled.agreesWith_report h.rooted hnames []
  have htallies : (r.reportOn a []).Tallies a (r.records a) := r.tallies_report [] a
  have hkept : ∀ id, (r.leave a).measurements.contains id = a.measurements.contains id := by
    intro id
    unfold OrderedMap.contains
    rw [r.measurements_leave, OrderedMap.find?_mapValues, Option.isSome_map]
  constructor
  case rooted =>
    have hrooted := h.rooted.execute r []
    rwa [(r.perform_execute a []).2] at hrooted
  case stored =>
    intro row hrow
    rw [hkept]
    rw [hagrees.entriesAfter] at hrow
    rcases List.mem_append.1 hrow with hrow | hrow
    · exact h.stored row hrow
    · obtain ⟨m, hm, hname, -⟩ := hagrees.pointing row hrow
      rw [← hname]
      exact Run.isStored_of_mem_records hm
  case stamped =>
    intro row hrow
    rw [hagrees.summariesAfter] at hrow
    rcases List.mem_append.1 hrow with hrow | hrow
    · exact h.stamped row hrow
    · rw [(hagrees.stamped row hrow).1]
      rfl
  case counted =>
    intro row hrow
    rw [hagrees.summariesAfter] at hrow
    rcases List.mem_append.1 hrow with hrow | hrow
    · rw [h.counted row hrow, entriesOf_leave hagrees hnames hrow]
    · exact (hagrees.counts row hrow).1
  case found =>
    -- The summaries of a window and kind are those of the earlier runs and those of this one.
    intro start k
    have hnew := exists_summary_iff hagrees htallies start k
    have hold := h.found start k
    have hhist : Run.Found (hist ++ [(r, a)]) start k ↔
        Run.Found hist start k ∨ Run.Found [(r, a)] start k := by
      unfold Run.Found
      simp only [List.mem_append, or_and_right, exists_or]
    rw [hhist, ← hold, ← hnew]
    unfold summariesAt
    simp only [hagrees.summariesAfter, List.mem_filter, List.mem_append, Bool.and_eq_true,
      decide_eq_true_eq, and_assoc, or_and_right, exists_or]

end Archive.Accounted

/-- **In an archive with its runs, all results are accounted for**, if the names of summaries are
distinct. -/
theorem Archive.FromRuns.accounted {hist : List (Run × Archive)} {a : Archive}
    (h : FromRuns hist a) (hnames : (a.summaries.map (·.id)).Nodup) : Accounted hist a := by
  induction h with
  | empty first => exact .empty first
  | insertDevice _ d ih => exact (ih hnames).of_frame rfl rfl fun _ hid => hid
  | insertTask _ t ih => exact (ih hnames).of_frame rfl rfl fun _ hid => hid
  | insertMeasurement _ m ih => exact (ih hnames).insertMeasurement m
  | @persistMeasurement hist a _ m ih =>
      revert hnames
      show ((replaceMeasurement m a).2.summaries.map (·.id)).Nodup →
        Accounted hist (replaceMeasurement m a).2
      unfold replaceMeasurement
      split
      · exact fun hnames => (ih hnames).insertMeasurement m
      · exact ih
  | @run hist a _ r unscheduled ih =>
      rw [(r.perform_execute a unscheduled).2] at hnames ⊢
      -- A run only adds summaries, so those of before have distinct names if all have.
      have hold : (a.summaries.map (·.id)).Nodup := by
        rw [(r.filed_leave a).summaries, List.map_append] at hnames
        exact (List.nodup_append.1 hnames).1
      exact (ih hold).leave r hnames

/-! ## Counting by summaries

The links of a cell are counted once more, summary by summary. Each summary of the window and kind
has as many links as it has counted errors, and no link points elsewhere. -/

/-- Counted by distinct names that cover it, a list is as long as it is. -/
theorem length_eq_total_count {α : Type} [DecidableEq α] {ks xs : List α} (hks : ks.Nodup)
    (h : ∀ x ∈ xs, x ∈ ks) : xs.length = Number.total (ks.map fun k => xs.count k) := by
  have hperm : (ks.flatMap fun k => xs.filter fun x => id x = k).Perm xs :=
    flatMap_filter_perm hks h
  rw [← hperm.length_eq, Number.length_flatMap]
  apply congrArg Number.total
  apply List.map_congr_left
  intro k _
  rw [List.count, List.countP_eq_length_filter]
  rfl

namespace Archive.Accounted

variable {hist : List (Run × Archive)} {a : Archive} (h : Accounted hist a)
  (hnames : (a.summaries.map (·.id)).Nodup)

include h hnames

/-- An entry belongs to the cell of its summary. -/
theorem linkAt?_of_mem {row : Stored EntryId Entry} (hrow : row ∈ a.entries) (start : Instant)
    (k : Kind) : (a.linkAt? start k.tag row.value).map (·.1) =
      if row.value.summary ∈ (a.summariesAt start k).map (·.id) then some row.value.summary
      else none := by
  obtain ⟨s, hs, hid⟩ := hasSummary_iff.1 (h.rooted row hrow)
  have hsummary : a.summary? row.value.summary = some s.value := by
    rw [← hid]
    exact lookup_of_mem hnames hs
  obtain ⟨w, hw⟩ := Option.isSome_iff_exists.1 (h.stamped s hs)
  obtain ⟨m, hm⟩ := Option.isSome_iff_exists.1 (h.stored row hrow)
  have htarget : a.target? row.value = some ⟨s.value, w, ⟨m.id, m.device⟩⟩ := by
    unfold target?
    rw [hsummary, Option.bind_eq_bind, Option.bind_some, hw, Option.bind_eq_bind, Option.bind_some,
      hm]
    rfl
  -- No other summary has that name, so the place of the link is the place of its own summary.
  have hplace : row.value.summary ∈ (a.summariesAt start k).map (·.id) ↔
      w = start ∧ s.value.kind.tag = k.tag := by
    rw [List.mem_map]
    constructor
    · rintro ⟨s', hs', hid'⟩
      obtain ⟨hs', hboth⟩ := List.mem_filter.1 hs'
      obtain rfl : s' = s := List.inj_on_of_nodup_map hnames hs' hs (hid'.trans hid.symm)
      simp only [Bool.and_eq_true, decide_eq_true_eq, hw, Option.some.injEq] at hboth
      exact ⟨hboth.1, by rw [hboth.2]⟩
    · rintro ⟨rfl, htag⟩
      refine ⟨s, List.mem_filter.2 ⟨hs, ?_⟩, hid⟩
      simp [hw, Kind.tag_injective htag]
  unfold linkAt?
  rw [htarget, Option.bind_some]
  by_cases hin : w = start ∧ s.value.kind.tag = k.tag
  · rw [if_pos hin, if_pos (hplace.2 hin)]
    rfl
  · rw [if_neg hin, if_neg fun hmem => hin (hplace.1 hmem)]
    rfl

/-- The entries of a cell are those of its summaries. -/
theorem map_fst_links (start : Instant) (k : Kind) :
    ((a.entries.map (·.value)).filterMap (a.linkAt? start k.tag)).map (·.1) =
      (a.entries.map (·.value.summary)).filter fun id =>
        id ∈ (a.summariesAt start k).map (·.id) := by
  -- By induction on a part of the rows: a link is resolved in the whole archive.
  have hrows : ∀ rows ⊆ a.entries,
      ((rows.map (·.value)).filterMap (a.linkAt? start k.tag)).map (·.1) =
        (rows.map (·.value.summary)).filter fun id =>
          id ∈ (a.summariesAt start k).map (·.id) := by
    intro rows hsub
    induction rows with
    | nil => rfl
    | cons row rows ih =>
        obtain ⟨hrow, hrest⟩ := List.cons_subset.1 hsub
        have hlink := h.linkAt?_of_mem hnames hrow start k
        rw [List.map_cons, List.map_cons]
        by_cases hmem : row.value.summary ∈ (a.summariesAt start k).map (·.id)
        · rw [if_pos hmem] at hlink
          obtain ⟨x, hx, hid⟩ := Option.map_eq_some_iff.1 hlink
          rw [List.filterMap_cons_some hx, List.map_cons, ih hrest, hid,
            List.filter_cons_of_pos (by simpa using hmem)]
        · rw [if_neg hmem, Option.map_eq_none_iff] at hlink
          rw [List.filterMap_cons_none hlink, ih hrest,
            List.filter_cons_of_neg (by simpa using hmem)]
  exact hrows a.entries fun _ hrow => hrow

/-- A summary counts the links that stand under its name. -/
theorem count_links {start : Instant} {k : Kind} {row : Stored SummaryId Summary}
    (hrow : row ∈ a.summariesAt start k) :
    row.value.errorCount = List.count row.id
      (((a.entries.map (·.value)).filterMap (a.linkAt? start k.tag)).map (·.1)) := by
  have hmem : row.id ∈ (a.summariesAt start k).map (·.id) := List.mem_map_of_mem hrow
  rw [h.map_fst_links hnames, List.count_filter (by simpa using hmem),
    h.counted row (List.mem_filter.1 hrow).1, entriesOf, ← List.countP_eq_length_filter,
    List.count, List.countP_map, List.countP_map]
  rfl

/-- **A cell has as many links as its summaries have counted errors.** -/
theorem length_links (start : Instant) (k : Kind) :
    ((a.entries.map (·.value)).filterMap (a.linkAt? start k.tag)).length =
      Number.total ((a.summariesAt start k).map (·.value.errorCount)) := by
  have hdistinct : ((a.summariesAt start k).map (·.id)).Nodup :=
    hnames.sublist (List.filter_sublist.map _)
  have hcover : ∀ id ∈ ((a.entries.map (·.value)).filterMap (a.linkAt? start k.tag)).map (·.1),
      id ∈ (a.summariesAt start k).map (·.id) := by
    intro id hid
    rw [h.map_fst_links hnames] at hid
    exact of_decide_eq_true (List.mem_filter.1 hid).2
  have hlength := length_eq_total_count hdistinct hcover
  rw [List.length_map, List.map_map] at hlength
  rw [hlength]
  apply congrArg Number.total
  apply List.map_congr_left
  intro row hrow
  exact (h.count_links hnames hrow).symm

/-- The errors under the summaries that are linked, each of these counted once, are as many as the
links. -/
theorem total_errorsUnder {start : Instant} {k : Kind} {ids : List SummaryId} (hids : ids.Nodup)
    (hmem : ∀ id, id ∈ ids ↔
      id ∈ ((a.entries.map (·.value)).filterMap (a.linkAt? start k.tag)).map (·.1)) :
    Number.total (ids.map a.errorsUnder) =
      ((a.entries.map (·.value)).filterMap (a.linkAt? start k.tag)).length := by
  have hlength := length_eq_total_count hids fun id => (hmem id).2
  rw [List.length_map] at hlength
  rw [hlength]
  apply congrArg Number.total
  apply List.map_congr_left
  intro id hid
  rw [hmem, h.map_fst_links hnames] at hid
  obtain ⟨row, hrow, rfl⟩ := List.mem_map.1 (of_decide_eq_true (List.mem_filter.1 hid).2)
  rw [← h.count_links hnames hrow]
  unfold errorsUnder
  rw [show a.summary? row.id = some row.value from
    lookup_of_mem hnames (List.mem_filter.1 hrow).1]
  rfl

end Archive.Accounted

/-! ## The buckets

A cell is there if it has a link, and it has one if some run has found an error of that window and
kind. -/

/-- The buckets are those of the runs `hist`, whose results are in the archive. -/
structure Buckets.AgreesWith (b : Buckets) (hist : List (Run × Archive)) (a : Archive) : Prop where
  /-- There is a cell just for the windows and kinds of which some run has found errors. -/
  cells : ∀ (start : Instant) (k : Kind),
    (b.cell? start k.tag).isSome = true ↔ Run.Found hist start k
  /-- A cell has counted its links. -/
  links : ∀ (start : Instant) (k : Kind) (c : Cell), b.cell? start k.tag = some c →
    c.count = c.links.length
  /-- A cell has counted what all summaries of its window and kind have counted. -/
  counts : ∀ (start : Instant) (k : Kind) (c : Cell), b.cell? start k.tag = some c →
    c.count = Number.total ((a.summariesAt start k).map (·.value.errorCount))

theorem Number.total_map_pos_iff {α : Type} {f : α → Nat} {xs : List α} :
    0 < total (xs.map f) ↔ ∃ x ∈ xs, 0 < f x := by
  induction xs with
  | nil => simp [total]
  | cons x xs ih =>
      simp only [List.map_cons, total, Nat.add_pos_iff_pos_or_pos, ih, List.mem_cons,
        or_and_right, exists_or, exists_eq_left]

/-- **The buckets of time agree with the runs**, if they take in all entries. -/
theorem Buckets.ofStore_agreesWith {hist : List (Run × Archive)} {a : Archive}
    (h : Archive.FromRuns hist a) (hnames : (a.summaries.map (·.id)).Nodup) {limit : Nat}
    (hall : a.entries.length ≤ limit) (hlimit : limit < Number.countBound) :
    ∃ b, ((ofStore Archive.store limit).perform a).value = .ok b ∧
      Buckets.AgreesWith b hist a := by
  have haccounted := h.accounted hnames
  obtain ⟨b, houtcome, hcells⟩ := ofStore_outcome limit a
  rw [List.take_of_length_le hall] at hcells
  have hlength : ∀ start k, ((a.entries.map (·.value)).filterMap
      (a.linkAt? start (Kind.tag k))).length < Number.countBound := by
    intro start k
    have hle := List.length_filterMap_le (a.linkAt? start k.tag) (a.entries.map (·.value))
    rw [List.length_map] at hle
    omega
  -- The errors that a cell has counted, its links and the errors of its summaries are as many.
  have hsame : ∀ start k c, b.cell? start (Kind.tag k) = some c → c.count = c.links.length ∧
      c.links.length = Number.total ((a.summariesAt start k).map (·.value.errorCount)) := by
    intro start k c hc
    have hcell := hcells start k.tag
    rw [hc] at hcell
    cases hcell with
    | links ids _ hlinks hnodup hids hcount =>
        rw [hcount, hlinks, List.length_map, countSum,
          haccounted.total_errorsUnder hnames hnodup hids, Nat.mod_eq_of_lt (hlength start k)]
        exact ⟨rfl, haccounted.length_links hnames start k⟩
  refine ⟨b, congrArg Prod.fst houtcome, fun start k => ?_, fun start k c hc =>
    (hsame start k c hc).1, fun start k c hc => (hsame start k c hc).1.trans (hsame start k c hc).2⟩
  rw [(hcells start k.tag).isSome_iff, haccounted.length_links hnames,
    Number.total_map_pos_iff]
  exact haccounted.found start k

/-- A run that is made twice is counted twice. -/
theorem Buckets.ofStore_agreesWith_ofOnePing :
    let r := Run.ofFirstInstant
    let a := Archive.ofOnePing
    let b := ((r.execute Archive.store []).perform a).state
    let c := ((r.execute Archive.store []).perform b).state
    ∃ x, ((ofStore Archive.store 2).perform c).value = .ok x ∧
      Buckets.AgreesWith x [(r, a), (r, b)] c :=
  have hbegin : Archive.FromRuns [] .ofOnePing :=
    ((Archive.FromRuns.empty 0).insertDevice _).insertMeasurement _
  ofStore_agreesWith ((hbegin.run .ofFirstInstant []).run .ofFirstInstant []) (by decide +kernel)
    (by decide +kernel) (by decide)

end NetAudit
