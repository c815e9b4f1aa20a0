import Mathlib.Data.List.Nodup
import NetAudit.Proofs.Dashboard.TopErrors
import NetAudit.Proofs.Run.Aftermath

/-!
# Runs that are made again

A run that is made again, under another name and at another time, counts what it counted before. It
reports the same, but for names and repairs, and adds the same results under names of its own. Both
follow from the filings of a run without their names, which depend on its accounts only
(`Tally.map_anonymous_filings`).
-/

namespace NetAudit

open Calendar (Instant)

/-! ## What is left without names

Two runs cannot be expected to give their summaries the same names. So reports, filings and results
are compared without them, and what is left depends on the accounts only. -/

def SummaryId.blank : SummaryId := ⟨.ofNat 0⟩

namespace KindReport

def anonymous (x : KindReport) : KindReport := { x with summary := x.summary.map fun _ => .blank }

end KindReport

/-- The report without its name, those of summaries, and the number of repairs. -/
def Report.anonymous (rep : Report) : Report :=
  { rep with run := "", repaired := 0, kinds := rep.kinds.mapValues KindReport.anonymous }

namespace Filing

def anonymous (f : Filing) : Filing := { f with summary := f.summary.map fun _ => .blank }

theorem values_rows_anonymous (f : Filing) :
    f.anonymous.rows.map (·.value) = f.rows.map (·.value) := by
  unfold rows anonymous
  cases f.summary <;> rfl

theorem errors_entries_anonymous (f : Filing) :
    f.anonymous.entries.map (fun e => (e.measurement, e.errors)) =
      f.entries.map fun e => (e.measurement, e.errors) := by
  unfold entries anonymous
  cases f.summary with
  | none => rfl
  | some id =>
      show (List.flatMap _ [_]).map _ = (List.flatMap _ [_]).map _
      rw [List.flatMap_singleton, List.flatMap_singleton, List.map_map, List.map_map]
      rfl

end Filing

theorem map_anonymous_filingsFrom (first n : Nat) (as : List (Kind × Account)) :
    (filingsFrom first n as).map Filing.anonymous =
      as.map fun e => (e.2.filing 0 0 e.1).anonymous := by
  induction as generalizing n with
  | nil => rfl
  | cons e as ih =>
      have hfirst : (e.2.filing first n e.1).anonymous = (e.2.filing 0 0 e.1).anonymous := by
        unfold Account.filing Filing.anonymous
        split <;> rfl
      rw [filingsFrom, List.map_cons, List.map_cons, hfirst, ih]

/-- **Without names, filings depend on the accounts only.** -/
theorem Tally.map_anonymous_filings {t u : Tally} (h : t.accounts = u.accounts) (a b : Archive) :
    (t.filings a).map Filing.anonymous = (u.filings b).map Filing.anonymous := by
  unfold filings
  rw [map_anonymous_filingsFrom, map_anonymous_filingsFrom, h]

/-- What a batch says without names. -/
def Batch.results (x : Batch) : List Summary × List (MeasurementId × List String) :=
  (x.summaries.map (·.value), x.entries.map fun row => (row.value.measurement, row.value.errors))

namespace Run

variable {a b : Archive}

theorem anonymous_reportOn (r : Run) (a : Archive) (unscheduled : List Window) :
    (r.reportOn a unscheduled).anonymous =
      { run := ""
        windowStart := r.window.start
        windowEnd := r.window.stop
        kinds := .ofList (((r.filings a).map Filing.anonymous).map Filing.report)
        skipped := (r.tally a).skipped
        repaired := 0
        entryCount := entryCount (r.tally a)
        unscheduled } := by
  unfold Report.anonymous reportOn report
  simp only [OrderedMap.mapValues_ofList, List.map_map]
  rfl

theorem results_batch (r : Run) (a : Archive) :
    (r.batch a).results =
      (((r.filings a).map Filing.anonymous).flatMap fun f => f.rows.map (·.value),
        ((r.filings a).map Filing.anonymous).flatMap fun f =>
          f.entries.map fun e => (e.measurement, e.errors)) := by
  have hentries : (r.batch a).entries.map (fun row => (row.value.measurement, row.value.errors)) =
      ((r.batch a).entries.map (·.value)).map fun e => (e.measurement, e.errors) := by
    rw [List.map_map]
    rfl
  have hvalues : (r.batch a).entries.map (·.value) = (r.filings a).flatMap Filing.entries :=
    map_value_storedFrom _ _ _
  unfold Batch.results
  rw [hentries, hvalues, List.flatMap_map, List.flatMap_map, List.map_flatMap]
  simp only [Filing.values_rows_anonymous, Filing.errors_entries_anonymous]
  show (((r.filings a).flatMap Filing.rows).map _, _) = _
  rw [List.map_flatMap]

end Run

namespace Archive.SameButTasks

variable {a b : Archive}

theorem anonymous_filings (h : a.SameButTasks b) (r : Run) :
    (r.filings b).map Filing.anonymous = (r.filings a).map Filing.anonymous :=
  Tally.map_anonymous_filings (h.tally r).1 b a

theorem anonymous_reportOn (h : a.SameButTasks b) (r : Run) (unscheduled : List Window) :
    (r.reportOn b unscheduled).anonymous = (r.reportOn a unscheduled).anonymous := by
  obtain ⟨haccounts, hskipped⟩ := h.tally r
  rw [r.anonymous_reportOn, r.anonymous_reportOn, h.anonymous_filings, hskipped]
  unfold Run.entryCount
  rw [haccounts]

theorem results_batch (h : a.SameButTasks b) (r : Run) :
    (r.batch b).results = (r.batch a).results := by
  rw [r.results_batch, r.results_batch, h.anonymous_filings]

theorem errorOf? (h : a.SameButTasks b) : b.errorOf? = a.errorOf? := by
  have hsame : ∀ (c : Archive) (id : MeasurementId),
      c.errorOf? id = ((c.measurements.mapValues Measurement.withoutTask).find? id).bind
        Measurement.error? := by
    intro c id
    rw [OrderedMap.find?_mapValues, Option.bind_map]
    rfl
  funext id
  rw [hsame, hsame, h.measurements]

end Archive.SameButTasks

/-! ## The same run again

All runs of a row begin with archives that differ in tasks and results only, and the accounts look
at neither. So each run says what the first one said. The first run may have repaired records, and
then the later ones find nothing to repair. -/

namespace Run

/-- The run under another name and at another time. -/
def again (r : Run) (c : String × Instant) : Run := { r with name := c.1, startedAt := c.2 }

variable (r : Run) (c : String × Instant) (a : Archive) (unscheduled : List Window)

theorem reportOn_again :
    (r.again c).reportOn a unscheduled = { r.reportOn a unscheduled with run := c.1 } := rfl

/-- A run that is made again repairs nothing. -/
theorem repaired_of_leave (d : String × Instant) :
    ((r.again d).reportOn ((r.again c).leave a) unscheduled).repaired = 0 := by
  have hrecords : (r.again d).records ((r.again c).leave a) =
      (r.records a).map ((r.again c).settle a) := by
    rw [records_eq_listed, listed_leave, r.records_eq_listed]
    rfl
  rw [repaired_reportOn, hrecords, List.countP_map, List.countP_eq_zero]
  intro m hm
  have hsettled := (r.again c).mends_settle a hm
  simpa using hsettled

/-- Any but the first of such runs begins with what one of them leaves. -/
theorem exists_leave_of_mem_stages {cs : List (String × Instant)} {p : Run × Archive}
    (h : p ∈ stages ((r.again c).leave a) (cs.map r.again)) :
    ∃ d e b, p = (r.again d, (r.again e).leave b) := by
  induction cs generalizing c a with
  | nil => exact absurd h List.not_mem_nil
  | cons d cs ih =>
      rcases List.mem_cons.1 h with rfl | h
      · exact ⟨d, c, a, rfl⟩
      · exact ih d _ h

theorem exists_again_of_mem_stages {cs : List (String × Instant)} {p : Run × Archive}
    (h : p ∈ stages a (cs.map r.again)) : ∃ d, p.1 = r.again d ∧ a.SameButTasks p.2 := by
  have hrun := List.mem_map_of_mem (f := (·.1)) h
  rw [map_fst_stages] at hrun
  obtain ⟨d, -, hd⟩ := List.mem_map.1 hrun
  exact ⟨d, hd.symm, sameButTasks_of_mem_stages h⟩

section Stage

variable {r : Run} {a : Archive} {cs : List (String × Instant)} {p : Run × Archive}
  (h : p ∈ stages a (cs.map r.again))

include h

/-- Each of such runs reports what the first one would report. -/
theorem anonymous_of_mem_stages (unscheduled : List Window) :
    (p.1.reportOn p.2 unscheduled).anonymous = (r.reportOn a unscheduled).anonymous := by
  obtain ⟨d, hd, hsame⟩ := r.exists_again_of_mem_stages a h
  rw [hd, reportOn_again]
  exact hsame.anonymous_reportOn r unscheduled

theorem results_of_mem_stages : (p.1.batch p.2).results = (r.batch a).results := by
  obtain ⟨d, hd, hsame⟩ := r.exists_again_of_mem_stages a h
  rw [hd]
  exact hsame.results_batch r

/-- The entries of a run that is made again point to summaries of the same run. -/
theorem exists_summary_of_mem_stages {row : Stored EntryId Entry}
    (hrow : row ∈ (p.1.batch p.2).entries) :
    ∃ s ∈ (p.1.batch p.2).summaries, s.id = row.value.summary ∧
      ∃ m ∈ r.records a, m.id = row.value.measurement ∧ s.value.kind = m.kind := by
  obtain ⟨d, hd, hsame⟩ := r.exists_again_of_mem_stages a h
  obtain ⟨s, hs, hid, m, hm, hmeasurement, hkind⟩ := p.1.exists_summary_of_mem_batch p.2 hrow
  -- In the archive of the beginning the record stands with its task.
  rw [hd] at hm
  have hmem := List.mem_map_of_mem (f := Measurement.withoutTask) hm
  rw [show (r.again d).records p.2 = r.records p.2 from rfl, hsame.map_records] at hmem
  obtain ⟨n, hn, heq⟩ := List.mem_map.1 hmem
  exact ⟨s, hs, hid, n, hn, (Measurement.SameButTask.id_eq heq).trans hmeasurement,
    hkind.trans (Measurement.SameButTask.kind_eq heq).symm⟩

/-- If all names of summaries are distinct, an entry of a run that is made again points to no
summary but one of the same run. -/
theorem mem_summaries_of_mem_stages
    (hnames : ((a.summaries ++ (stages a (cs.map r.again)).flatMap fun p =>
      (p.1.batch p.2).summaries).map (·.id)).Nodup)
    {row : Stored EntryId Entry} (hrow : row ∈ (p.1.batch p.2).entries)
    {s : Stored SummaryId Summary} (hs : s ∈ a.summaries ++ (stages a (cs.map r.again)).flatMap
      fun p => (p.1.batch p.2).summaries) (hid : s.id = row.value.summary) :
    s ∈ (p.1.batch p.2).summaries := by
  obtain ⟨own, hown, hname, -⟩ := exists_summary_of_mem_stages h hrow
  have hstored : own ∈ a.summaries ++
      (stages a (cs.map r.again)).flatMap fun p => (p.1.batch p.2).summaries :=
    List.mem_append_right _ (List.mem_flatMap.2 ⟨p, h, hown⟩)
  -- The summary of that name in the batch is the only one of that name at all.
  obtain rfl : s = own := List.inj_on_of_nodup_map hnames hs hstored (hid.trans hname.symm)
  exact hown

end Stage

/-- **Making a run again does not change the ranking of errors.** -/
theorem topErrors_again (cs : List (String × Instant)) (limit n : Nat) :
    ((TopErrors.ofStore Archive.store limit n).perform
        (leaveAll ((r.again c).leave a) (cs.map r.again))).value =
      ((TopErrors.ofStore Archive.store limit n).perform ((r.again c).leave a)).value := by
  have hsame := sameButTasks_leaveAll ((r.again c).leave a) (cs.map r.again)
  obtain ⟨-, hentries⟩ := tables_leaveAll ((r.again c).leave a) (cs.map r.again)
  refine TopErrors.ofStore_of_entries_append hentries ?_ hsame.errorOf? limit n
  -- What the later runs found, the first one has found before.
  intro id hid
  obtain ⟨row, hrow, rfl⟩ := List.mem_map.1 hid
  obtain ⟨p, hp, hrow⟩ := List.mem_flatMap.1 hrow
  have hresults : (p.1.batch p.2).results = (r.batch a).results :=
    (results_of_mem_stages hp).trans ((Archive.SameButTasks.leave (r.again c) a).results_batch r)
  have hmem : (row.value.measurement, row.value.errors) ∈ (p.1.batch p.2).results.2 :=
    List.mem_map_of_mem
      (f := fun row : Stored EntryId Entry => (row.value.measurement, row.value.errors)) hrow
  rw [hresults] at hmem
  obtain ⟨old, hold, heq⟩ := List.mem_map.1 hmem
  rw [((r.again c).filed_leave a).entries, List.map_append]
  apply List.mem_append_right
  exact List.mem_map.2 ⟨old, hold, (Prod.mk.inj heq).1⟩

end Run

/-- What becomes of a run that is made several times, under the names and at the times `cs`: the
reports `reps`, and the results `batches` that the runs add to those of an archive. -/
structure Run.Repeats (r : Run) (unscheduled : List Window) (a : Archive)
    (cs : List (String × Instant)) (reps : List Report) (batches : List Batch) : Prop where
  succeeds : (executeAll Archive.store unscheduled (cs.map r.again) a).value = reps.map .ok
  names : reps.map (·.run) = cs.map (·.1)
  /-- But for names and repairs, all reports are the same. -/
  alike : ∀ x ∈ reps, ∀ y ∈ reps, x.anonymous = y.anonymous
  repaired : ∀ x ∈ reps.tail, x.repaired = 0
  /-- Each run adds its batch behind what is there. -/
  length : batches.length = cs.length
  summaries : ∀ i,
    (executeAll Archive.store unscheduled ((cs.take i).map r.again) a).state.summaries =
      a.summaries ++ (batches.take i).flatMap (·.summaries)
  entries : ∀ i,
    (executeAll Archive.store unscheduled ((cs.take i).map r.again) a).state.entries =
      a.entries ++ (batches.take i).flatMap (·.entries)
  results : ∀ x ∈ batches, ∀ y ∈ batches, x.results = y.results
  /-- The entries of a batch point to the summaries of that batch. -/
  own : ∀ x ∈ batches, ∀ row ∈ x.entries, ∃ s ∈ x.summaries, s.id = row.value.summary ∧
    ∃ m ∈ r.records a, m.id = row.value.measurement ∧ s.value.kind = m.kind
  /-- If all names of summaries are distinct, no two batches share one, and the entries of a batch
  point to no other summaries. -/
  apart : ((executeAll Archive.store unscheduled (cs.map r.again) a).state.summaries.map
      (·.id)).Nodup →
    batches.Pairwise (fun x y =>
        (x.summaries.map (·.id)).Disjoint (y.summaries.map (·.id))) ∧
      ∀ x ∈ batches, ∀ row ∈ x.entries,
        ∀ s ∈ (executeAll Archive.store unscheduled (cs.map r.again) a).state.summaries,
          s.id = row.value.summary → s ∈ x.summaries
  /-- The ranking of errors is that after the first run. -/
  topErrors : ∀ i, 0 < i → ∀ limit n, ∃ top,
    ((TopErrors.ofStore Archive.store limit n).perform
      (executeAll Archive.store unscheduled ((cs.take i).map r.again) a).state).value = .ok top ∧
    ((TopErrors.ofStore Archive.store limit n).perform
      (executeAll Archive.store unscheduled ((cs.take 1).map r.again) a).state).value = .ok top

/-- **Runs that are made again are independent and do no harm.** -/
theorem Run.executeAll_repeats (r : Run) (unscheduled : List Window) (a : Archive)
    (cs : List (String × Instant)) : ∃ reps batches, r.Repeats unscheduled a cs reps batches := by
  -- After so many runs the archive is what the stages so far leave, so that every part of the
  -- statement is about the stages.
  have hstate : ∀ i, (executeAll Archive.store unscheduled ((cs.take i).map r.again) a).state =
      leaveAll a ((cs.take i).map r.again) :=
    fun i => congrArg Prod.snd (executeAll_outcome unscheduled ((cs.take i).map r.again) a)
  have hstages : ∀ i, stages a ((cs.take i).map r.again) =
      (stages a (cs.map r.again)).take i := by
    intro i
    rw [List.map_take, stages_take]
  refine ⟨(stages a (cs.map r.again)).map fun p => p.1.reportOn p.2 unscheduled,
    (stages a (cs.map r.again)).map fun p => p.1.batch p.2, ?_⟩
  constructor
  case succeeds =>
    have hvalue := congrArg Prod.fst (executeAll_outcome unscheduled (cs.map r.again) a)
    rw [List.map_map]
    exact hvalue
  case names =>
    rw [List.map_map]
    have hfst := congrArg (List.map Run.name) (map_fst_stages a (cs.map r.again))
    rw [List.map_map, List.map_map] at hfst
    exact hfst
  case alike =>
    intro x hx y hy
    obtain ⟨p, hp, rfl⟩ := List.mem_map.1 hx
    obtain ⟨q, hq, rfl⟩ := List.mem_map.1 hy
    rw [anonymous_of_mem_stages hp, anonymous_of_mem_stages hq]
  case repaired =>
    cases cs with
    | nil => exact fun x hx => absurd hx List.not_mem_nil
    | cons c cs =>
        -- Every later run begins with an archive that such a run has left.
        intro x hx
        obtain ⟨p, hp, rfl⟩ := List.mem_map.1 hx
        obtain ⟨d, e, b, rfl⟩ := r.exists_leave_of_mem_stages c a hp
        exact r.repaired_of_leave e b unscheduled d
  case length =>
    have hlength := congrArg List.length (map_fst_stages a (cs.map r.again))
    rw [List.length_map, List.length_map] at hlength
    rw [List.length_map, hlength]
  case summaries =>
    intro i
    rw [hstate, (tables_leaveAll _ _).1, hstages, ← List.map_take, List.flatMap_map]
  case entries =>
    intro i
    rw [hstate, (tables_leaveAll _ _).2, hstages, ← List.map_take, List.flatMap_map]
  case results =>
    intro x hx y hy
    obtain ⟨p, hp, rfl⟩ := List.mem_map.1 hx
    obtain ⟨q, hq, rfl⟩ := List.mem_map.1 hy
    rw [results_of_mem_stages hp, results_of_mem_stages hq]
  case own =>
    intro x hx row hrow
    obtain ⟨p, hp, rfl⟩ := List.mem_map.1 hx
    exact exists_summary_of_mem_stages hp hrow
  case apart =>
    have hall : (executeAll Archive.store unscheduled (cs.map r.again) a).state.summaries =
        a.summaries ++ (stages a (cs.map r.again)).flatMap fun p => (p.1.batch p.2).summaries :=
      (congrArg (fun x => x.2.summaries)
        (executeAll_outcome unscheduled (cs.map r.again) a)).trans (tables_leaveAll a _).1
    rw [hall]
    intro hnames
    constructor
    · -- The batches are parts of one table, and its names are distinct.
      rw [List.map_append, List.map_flatMap] at hnames
      rw [List.pairwise_map]
      exact (List.nodup_flatMap.1 (List.nodup_append.1 hnames).2.1).2
    · intro x hx row hrow s hs hid
      obtain ⟨p, hp, rfl⟩ := List.mem_map.1 hx
      exact mem_summaries_of_mem_stages hp hnames hrow hs hid
  case topErrors =>
    intro i hi limit n
    rw [hstate, hstate]
    obtain ⟨j, rfl⟩ := Nat.exists_eq_add_of_lt hi
    have hok : ∀ b, ∃ top,
        ((TopErrors.ofStore Archive.store limit n).perform b).value = .ok top :=
      fun b => ⟨_, congrArg Prod.fst (TopErrors.ofStore_outcome limit n b)⟩
    -- Without any runs there is nothing to compare; otherwise the runs behind the first one change
    -- nothing.
    cases cs with
    | nil =>
        obtain ⟨top, htop⟩ := hok a
        rw [List.take_nil, List.take_nil]
        exact ⟨top, htop, htop⟩
    | cons c cs =>
        obtain ⟨top, htop⟩ := hok ((r.again c).leave a)
        have hagain := r.topErrors_again c a (cs.take j) limit n
        rw [Nat.zero_add, List.take_succ_cons]
        exact ⟨top, hagain.trans htop, htop⟩

end NetAudit
