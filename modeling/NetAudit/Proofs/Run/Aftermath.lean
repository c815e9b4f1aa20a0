import NetAudit.Proofs.Run.Degraded

/-!
# What a run leaves to others

A run leaves an archive with more results and with fewer tasks that are gone: it clears them in its
own records, and touches no other measurement (`Run.measurements_leave`). As tasks play no part in
what is counted, whoever comes next finds the archive as it was, but for what is to be repaired
(`Archive.SameButTasks`).
-/

namespace NetAudit

/-! ## Repairs

A record is to be repaired if its device is stored and its task is not. A repaired record is not to
be repaired again, as it has no task any more. -/

/-- A run clears the task of the record, which is gone while its device is there. -/
def Archive.mends (a : Archive) (m : Measurement) : Bool :=
  a.devices.contains m.device && a.dangles m

theorem Outages.clears_sound (a : Archive) (lookups : Nat) (m : Measurement) :
    ({} : Outages).clears a lookups m = a.mends m := by
  show (_ && (_ && true && true)) = _
  rw [Bool.and_true, Bool.and_true]
  rfl

theorem Archive.mends_withoutTask (a : Archive) (m : Measurement) :
    a.mends m.withoutTask = false := Bool.and_false _

theorem Archive.mends_congr {a b : Archive} (hdevices : b.devices = a.devices)
    (htasks : b.tasks = a.tasks) : b.mends = a.mends := by
  funext m
  simp only [mends, dangles, hdevices, htasks]

namespace Run

/-! ## One run

What a run leaves and what it reports are given names, as functions of the run and the archive:
`Run.leave` and `Run.reportOn`. -/

variable (r : Run) (a : Archive)

def leave : Archive := (a.afterVisits (r.visits a)).writeAll (r.writes a)

def reportOn (unscheduled : List Window) : Report :=
  r.report unscheduled (r.tally a) (r.filings a)

theorem perform_execute (unscheduled : List Window) :
    ((r.execute Archive.store unscheduled).perform a).value = .ok (r.reportOn a unscheduled) ∧
      ((r.execute Archive.store unscheduled).perform a).state = r.leave a := by
  have hrun := r.execute_archive unscheduled a
  exact ⟨congrArg Prod.fst hrun, congrArg Prod.snd hrun⟩

theorem leave_frame :
    (r.leave a).first = a.first ∧ (r.leave a).devices = a.devices ∧
      (r.leave a).tasks = a.tasks := by
  obtain ⟨h₁, -, h₃, h₄⟩ := (a.afterVisits (r.visits a)).writeAll_frame (r.writes a)
  obtain ⟨g₁, g₂, g₃, -, -⟩ := a.afterVisits_frame (r.visits a)
  exact ⟨h₁.trans g₁, h₃.trans g₂, h₄.trans g₃⟩

/-- What becomes of a measurement. -/
def settle (m : Measurement) : Measurement :=
  if m ∈ r.records a ∧ a.mends m then m.withoutTask else m

theorem settle_sameButTask (m : Measurement) : (r.settle a m).SameButTask m := by
  unfold settle
  split <;> rfl

theorem settle_of_not_mem {m : Measurement} (h : m ∉ r.records a) : r.settle a m = m :=
  if_neg fun hboth => h hboth.1

/-- **A run clears the tasks of its records that are gone**, and changes no measurement else. -/
theorem measurements_leave :
    (r.leave a).measurements = a.measurements.mapValues (r.settle a) := by
  have hframe : (r.leave a).measurements = (a.afterVisits (r.visits a)).measurements :=
    (Archive.writeAll_frame _ _).2.1
  rw [hframe]
  apply OrderedMap.ext_find?
  intro id
  rw [OrderedMap.find?_mapValues]
  by_cases hid : id ∈ (r.records a).map (·.id)
  · obtain ⟨m, hm, rfl⟩ := List.mem_map.1 hid
    obtain ⟨j, hj⟩ := List.mem_iff_getElem?.1 hm
    rw [visits, r.find?_afterVisits_records a {} 0 hj, find?_of_mem_records hm,
      Outages.clears_sound]
    simp [settle, hm]
  · have hvisits : id ∉ (r.visits a).map (·.1.id) := by
      unfold visits
      rwa [map_id_visits]
    rw [Archive.find?_afterVisits_of_not_mem _ _ hvisits]
    -- Whatever stands under this name is no record of the run.
    cases hfind : a.measurements.find? id with
    | none => rfl
    | some m =>
        have hname : m.id = id := a.named _ ((OrderedMap.find?_eq_some_iff _ _ _).1 hfind)
        have hm : m ∉ r.records a := fun hm => hid (List.mem_map.2 ⟨m, hm, hname⟩)
        rw [Option.map_some, r.settle_of_not_mem a hm]

/-- A query lists what it listed before the run, with the tasks that the run cleared. -/
theorem listed_leave (q : Query) : (r.leave a).listed q = (a.listed q).map (r.settle a) := by
  apply Archive.listed_of_values_eq_map (r.settle_sameButTask a)
  rw [r.measurements_leave, OrderedMap.values_mapValues]

theorem repaired_reportOn (unscheduled : List Window) :
    (r.reportOn a unscheduled).repaired = (r.records a).countP a.mends := by
  have hrepaired : (r.reportOn a unscheduled).repaired = _ := (r.tells_tally a).repaired
  rw [hrepaired, visits, Outages.countP_repaired_visits]
  simp only [Outages.clears_sound]
  have hfst := List.countP_map (p := a.mends) (f := Prod.fst) (l := (r.records a).zipIdx)
  rw [List.zipIdx_map_fst] at hfst
  exact hfst.symm

/-- **A run leaves nothing to repair** in its own records. -/
theorem mends_settle {m : Measurement} (h : m ∈ r.records a) :
    (r.leave a).mends (r.settle a m) = false := by
  obtain ⟨-, hdevices, htasks⟩ := r.leave_frame a
  rw [Archive.mends_congr hdevices htasks]
  unfold settle
  by_cases hm : a.mends m = true
  · rw [if_pos ⟨h, hm⟩, Archive.mends_withoutTask]
  · rw [if_neg fun hboth => hm hboth.2, Bool.eq_false_iff]
    exact hm

end Run

/-! ## Results

The results of a run as data: they depend on the archive and on the run, and not on what other runs
have filed. -/

/-- Results that stand in the tables one after the other. -/
structure Batch where
  summaries : List (Stored SummaryId Summary)
  entries : List (Stored EntryId Entry)

namespace Run

variable (r : Run) (a : Archive)

/-- The results that a run adds to those of an archive. -/
def batch : Batch where
  summaries := (r.filings a).flatMap Filing.rows
  entries := storedFrom (.nth a.first) a.entries.length ((r.filings a).flatMap Filing.entries)

theorem filed_leave : r.Filed a (r.leave a) (r.batch a).entries := by
  obtain ⟨hsummaries, hentries⟩ := a.hasResults_afterVisits (r.visits a) (r.writes a)
  obtain ⟨hnew, -⟩ := a.tables_writeAll_filings (r.tally a)
  refine ⟨hsummaries.trans hnew, ?_, map_value_storedFrom _ _ _⟩
  rw [leave, hentries, Archive.entries_writeAll, writes, entries_filings]
  rfl

/-- A new entry stands under a new summary, for the kind of its measurement. -/
theorem exists_summary_of_mem_batch {row : Stored EntryId Entry} (h : row ∈ (r.batch a).entries) :
    ∃ s ∈ (r.batch a).summaries, s.id = row.value.summary ∧
      ∃ m ∈ r.records a, m.id = row.value.measurement ∧ s.value.kind = m.kind := by
  obtain ⟨f, hf, hid, m, hm, hkind, hmeasurement⟩ := (r.filed_leave a).exists_of_mem h
  refine ⟨_, mem_rows_filings hf hid, rfl, m, hm, hmeasurement, ?_⟩
  rw [hkind]
  exact (tells_of_mem_filings hf).kind

end Run

/-! ## Archives that differ in tasks and results

Tasks and results are all that a run changes. It looks at neither when it counts, so on archives
that differ in nothing else it counts the same. -/

/-- The archives hold the same devices and tasks, and the same measurements but for the tasks of
these. -/
structure Archive.SameButTasks (a b : Archive) : Prop where
  devices : b.devices = a.devices
  tasks : b.tasks = a.tasks
  measurements :
    b.measurements.mapValues Measurement.withoutTask =
      a.measurements.mapValues Measurement.withoutTask

namespace Archive.SameButTasks

variable {a b c : Archive}

theorem refl (a : Archive) : a.SameButTasks a := ⟨rfl, rfl, rfl⟩

theorem trans (hab : a.SameButTasks b) (hbc : b.SameButTasks c) : a.SameButTasks c :=
  ⟨hbc.devices.trans hab.devices, hbc.tasks.trans hab.tasks,
    hbc.measurements.trans hab.measurements⟩

/-- **A run is not seen but in tasks and results.** -/
theorem leave (r : Run) (a : Archive) : a.SameButTasks (r.leave a) := by
  obtain ⟨-, hdevices, htasks⟩ := r.leave_frame a
  refine ⟨hdevices, htasks, ?_⟩
  rw [r.measurements_leave]
  apply OrderedMap.ext_find?
  intro id
  rw [OrderedMap.find?_mapValues, OrderedMap.find?_mapValues, OrderedMap.find?_mapValues,
    Option.map_map]
  congr 1
  funext m
  exact r.settle_sameButTask a m

theorem map_listed (h : a.SameButTasks b) (q : Query) :
    (b.listed q).map Measurement.withoutTask = (a.listed q).map Measurement.withoutTask := by
  have hvalues : b.measurements.values.map Measurement.withoutTask =
      a.measurements.values.map Measurement.withoutTask := by
    rw [← OrderedMap.values_mapValues, h.measurements, OrderedMap.values_mapValues]
  have hpick := q.pick_map Measurement.withoutTask_sameButTask
  rw [listed_eq_pick, listed_eq_pick, ← hpick, ← hpick, hvalues]

theorem map_records (h : a.SameButTasks b) (r : Run) :
    (r.records b).map Measurement.withoutTask = (r.records a).map Measurement.withoutTask := by
  rw [r.records_eq_listed, r.records_eq_listed, h.map_listed]

/-- **A run counts the same on both**, but for what it repairs. -/
theorem tally (h : a.SameButTasks b) (r : Run) :
    (r.tally b).accounts = (r.tally a).accounts ∧ (r.tally b).skipped = (r.tally a).skipped := by
  apply Tally.ofVisits_congr_tasks
  have hvisits : ∀ c : Archive, c.devices = a.devices →
      (r.visits c).map (fun p => (p.1.withoutTask, p.2.device?)) =
        ((r.records c).map Measurement.withoutTask).map fun m => (m, a.devices.find? m.device) := by
    intro c hdevices
    have hdevice := Outages.map_device?_visits {} c 0 (r.records c)
    have hmap := congrArg (List.map fun p : Measurement × Option DeviceInfo =>
      (p.1.withoutTask, p.2)) hdevice
    rw [List.map_map, List.map_map] at hmap
    rw [List.map_map, ← hdevices]
    exact hmap
  rw [hvisits b h.devices, hvisits a rfl, h.map_records]

end Archive.SameButTasks

/-! ## Runs in a row

Each run of a row begins with what those before it have left. By the section before, it still finds
what the first one found. -/

namespace Run

def executeAll {σ : Type} (store : Store σ) (unscheduled : List Window) (rs : List Run) :
    Action σ (List (Except RunError Report)) :=
  rs.mapM fun r => (r.execute store unscheduled).run

/-- Runs, each with the archive that those before it leave. -/
def stages : Archive → List Run → List (Run × Archive)
  | _, [] => []
  | a, r :: rs => (r, a) :: stages (r.leave a) rs

def leaveAll (a : Archive) (rs : List Run) : Archive := rs.foldl (fun a r => r.leave a) a

variable {a : Archive} {rs : List Run}

theorem map_fst_stages (a : Archive) (rs : List Run) : (stages a rs).map (·.1) = rs := by
  induction rs generalizing a with
  | nil => rfl
  | cons r rs ih => rw [stages, List.map_cons, ih]

theorem stages_take (a : Archive) (rs : List Run) (i : Nat) :
    stages a (rs.take i) = (stages a rs).take i := by
  induction rs generalizing a i with
  | nil => simp [stages]
  | cons r rs ih =>
      cases i with
      | zero => rfl
      | succ i => rw [List.take_succ_cons, stages, stages, List.take_succ_cons, ih]

/-- **Runs in a row succeed**, each on what those before it leave. -/
theorem executeAll_outcome (unscheduled : List Window) (rs : List Run) (a : Archive) :
    (executeAll Archive.store unscheduled rs).outcome a =
      ((stages a rs).map fun p => .ok (p.1.reportOn p.2 unscheduled), leaveAll a rs) := by
  induction rs generalizing a with
  | nil => rfl
  | cons r rs ih =>
      have hrun : Action.outcome (r.execute Archive.store unscheduled).run a =
          (.ok (r.reportOn a unscheduled), r.leave a) := r.execute_archive unscheduled a
      have hrest := ih (r.leave a)
      unfold executeAll at hrest ⊢
      rw [List.mapM_cons, Action.outcome_bind, hrun, Action.outcome_bind, hrest]
      rfl

theorem sameButTasks_leaveAll (a : Archive) (rs : List Run) : a.SameButTasks (leaveAll a rs) := by
  induction rs generalizing a with
  | nil => exact .refl a
  | cons r rs ih => exact (Archive.SameButTasks.leave r a).trans (ih (r.leave a))

theorem sameButTasks_of_mem_stages {p : Run × Archive} (h : p ∈ stages a rs) :
    a.SameButTasks p.2 := by
  induction rs generalizing a with
  | nil => exact absurd h List.not_mem_nil
  | cons q rs ih =>
      rcases List.mem_cons.1 h with rfl | h
      · exact .refl a
      · exact (Archive.SameButTasks.leave q a).trans (ih h)

/-- The results of runs in a row stand in the tables one batch after the other. -/
theorem tables_leaveAll (a : Archive) (rs : List Run) :
    (leaveAll a rs).summaries =
        a.summaries ++ (stages a rs).flatMap (fun p => (p.1.batch p.2).summaries) ∧
      (leaveAll a rs).entries =
        a.entries ++ (stages a rs).flatMap fun p => (p.1.batch p.2).entries := by
  induction rs generalizing a with
  | nil => exact ⟨(List.append_nil _).symm, (List.append_nil _).symm⟩
  | cons r rs ih =>
      obtain ⟨hsummaries, hentries⟩ := ih (r.leave a)
      have hfiled := r.filed_leave a
      rw [hfiled.summaries, List.append_assoc] at hsummaries
      rw [hfiled.entries, List.append_assoc] at hentries
      exact ⟨hsummaries, hentries⟩

end Run

end NetAudit
