import Mathlib.Data.List.Nodup
import NetAudit.Proofs.Run.Covered

/-!
# What a run repairs

A run reads the measurements of its window and changes them as well: it clears references to tasks
that are gone. `Run.execute_repairs` fixes the tables of measurements, devices and tasks after a run
in full. The records that change are those that the run took from its stream and whose device is
there while their task is not, and the report says how many they are.
-/

namespace NetAudit

/-! ## Records that are repaired

A measurement is changed by a run just if it is one of its records and is to be mended. Counting the
measurements that differ afterwards is therefore the same as counting these records. -/

section Mends

variable {a : Archive} {m : Measurement}

theorem Archive.dangles_iff :
    a.dangles m = true ↔ ∃ task, m.task = some task ∧ a.tasks.find? task = none := by
  unfold dangles
  rw [Option.any_eq_true]
  simp [OrderedMap.contains]

theorem Archive.mends_iff :
    a.mends m = true ↔ a.devices.contains m.device = true ∧
      ∃ task, m.task = some task ∧ a.tasks.find? task = none := by
  unfold mends
  rw [Bool.and_eq_true, dangles_iff]

/-- A repair is seen. -/
theorem Archive.withoutTask_ne (h : a.mends m = true) : m.withoutTask ≠ m := by
  obtain ⟨-, task, htask, -⟩ := mends_iff.1 h
  intro heq
  rw [← heq, Measurement.withoutTask_task] at htask
  cases htask

end Mends

namespace Run

variable (r : Run) (a : Archive)

/-- A stored measurement changes if the run repairs it. -/
theorem settle_eq_self_iff (m : Measurement) :
    r.settle a m = m ↔ ¬(m ∈ r.records a ∧ a.mends m = true) := by
  unfold settle
  split
  · next h => exact iff_of_false (Archive.withoutTask_ne h.2) fun hnot => hnot h
  · next h => exact iff_of_true rfl h

theorem find?_leave (id : MeasurementId) :
    (r.leave a).measurements.find? id = (a.measurements.find? id).map (r.settle a) := by
  rw [r.measurements_leave, OrderedMap.find?_mapValues]

/-- The records of a run are stored, each of them once. -/
theorem records_perm_filter_values :
    (r.records a).Perm (a.measurements.values.filter fun m => decide (m ∈ r.records a)) := by
  have hrecords : (r.records a).Nodup := by
    rw [r.records_eq_listed]
    exact (a.nodup_ids_listed r.query).of_map _
  have hvalues : a.measurements.values.Nodup := a.nodup_ids_values.of_map _
  rw [List.perm_ext_iff_of_nodup hrecords (hvalues.filter _)]
  intro m
  rw [List.mem_filter, decide_eq_true_eq]
  constructor
  · intro hm
    refine ⟨?_, hm⟩
    exact (a.mem_values_iff m).2 (find?_of_mem_records hm)
  · exact And.right

/-- **The stored measurements that change are as many as the records to repair.** -/
theorem countP_find?_leave :
    (a.measurements.values.countP fun m => (r.leave a).measurements.find? m.id ≠ some m) =
      (r.records a).countP a.mends := by
  have hchanged : ∀ m ∈ a.measurements.values,
      (r.leave a).measurements.find? m.id ≠ some m ↔ m ∈ r.records a ∧ a.mends m = true := by
    intro m hm
    rw [r.find?_leave, (a.mem_values_iff m).1 hm, Option.map_some, ne_eq, Option.some_inj,
      settle_eq_self_iff, not_not]
  calc (a.measurements.values.countP fun m => (r.leave a).measurements.find? m.id ≠ some m)
      = a.measurements.values.countP fun m => a.mends m && decide (m ∈ r.records a) :=
        List.countP_congr fun m hm => by simp [hchanged m hm, and_comm]
    _ = (a.measurements.values.filter fun m => decide (m ∈ r.records a)).countP a.mends :=
        (List.countP_filter).symm
    _ = (r.records a).countP a.mends := ((r.records_perm_filter_values a).countP_eq _).symm

end Run

/-! ## The tables after a run

`Run.Repairs` names the tables one by one, and the count in the report. -/

/-- A run that took the records `ms` from its stream and reported `rep` has cleared tasks, and has
left the tables as they were otherwise. -/
structure Run.Repairs (r : Run) (before after : Archive) (rep : Report)
    (ms : List Measurement) : Prop where
  /-- The records are those of the window, up to the limit. -/
  streamed : r.query.Wants before ms
  /-- Every measurement is as before, or without its task: that of a record which refers to a task
  that is not stored, while its device is. -/
  measurements : after.measurements = before.measurements.mapValues fun m =>
    if m ∈ ms ∧ before.devices.contains m.device = true ∧ before.dangles m = true
    then { m with task := none } else m
  devices : after.devices = before.devices
  tasks : after.tasks = before.tasks
  /-- Outside the window or beyond the limit, without its device, or with a task that is stored, a
  measurement stays as it is. -/
  kept : ∀ m, before.measurements.find? m.id = some m →
    m ∉ ms ∨ before.devices.find? m.device = none ∨
        (∀ task, m.task = some task → before.tasks.find? task ≠ none) →
      after.measurements.find? m.id = some m
  repaired : rep.repaired = ms.countP fun m => before.devices.contains m.device && before.dangles m
  /-- As many measurements differ. -/
  changed : rep.repaired =
    before.measurements.values.countP fun m => after.measurements.find? m.id ≠ some m
  /-- No record of which the device is stored refers to a task that is not. -/
  settled : ∀ m ∈ ms, after.devices.contains m.device = true →
    ∃ n, after.measurements.find? m.id = some n ∧ n.SameButTask m ∧
      ∀ task, n.task = some task → ∃ t, after.tasks.find? task = some t

/-- **A run repairs its own records and nothing else.** -/
theorem Run.execute_repairs (r : Run) (unscheduled : List Window) (a : Archive) :
    ∃ rep ms,
      ((r.execute Archive.store unscheduled).perform a).value = .ok rep ∧
        ((r.stream Archive.store).outcome a).1.1.2 = ms ∧
          r.Repairs a ((r.execute Archive.store unscheduled).perform a).state rep ms := by
  obtain ⟨hvalue, hstate⟩ := r.perform_execute a unscheduled
  obtain ⟨-, hdevices, htasks⟩ := r.leave_frame a
  have hstream := congrArg (fun x => x.1.2) (r.stream_outcome a)
  refine ⟨r.reportOn a unscheduled, r.records a, hvalue, hstream, ?_⟩
  rw [hstate]
  constructor
  case streamed =>
    rw [r.records_eq_listed]
    exact a.wants_listed r.query
  case measurements =>
    rw [r.measurements_leave]
    congr 1
    funext m
    unfold settle Archive.mends
    simp only [Bool.and_eq_true]
    rfl
  case devices => exact hdevices
  case tasks => exact htasks
  case kept =>
    intro m hm hwhy
    -- Each of the three reasons rules out that the measurement is to be mended.
    have hkept : ¬(m ∈ r.records a ∧ a.mends m = true) := by
      rintro ⟨hrecord, hmends⟩
      obtain ⟨hdevice, task, htask, hgone⟩ := Archive.mends_iff.1 hmends
      rcases hwhy with hout | hmissing | hthere
      · exact hout hrecord
      · simp [OrderedMap.contains, hmissing] at hdevice
      · exact hthere task htask hgone
    rw [r.find?_leave, hm, Option.map_some, (r.settle_eq_self_iff a m).2 hkept]
  case repaired => exact r.repaired_reportOn a unscheduled
  case changed => rw [r.repaired_reportOn, r.countP_find?_leave]
  case settled =>
    intro m hm hdevice
    have hfind := find?_of_mem_records hm
    have hsame := r.settle_sameButTask a m
    refine ⟨r.settle a m, ?_, hsame, fun task htask => ?_⟩
    · rw [r.find?_leave, hfind, Option.map_some]
    · cases hfound : (r.leave a).tasks.find? task with
      | some t => exact ⟨t, rfl⟩
      | none =>
          -- A reference to a task that is gone would still be there to mend, and none is.
          have hmends : (r.leave a).mends (r.settle a m) = true := by
            refine Archive.mends_iff.2 ⟨?_, task, htask, hfound⟩
            rwa [hsame.device_eq]
          rw [r.mends_settle a hm] at hmends
          cases hmends

end NetAudit
