import NetAudit.Proofs.OrderedMap
import NetAudit.Store.Archive

/-!
# Archives that are filled from snapshots

The lists of a snapshot go into the tables of an archive item by item, and of several items with one
name the last one stays (`Archive.find?_measurements_ofSnapshot`). Nothing else is kept of a list.
So two snapshots fill an archive alike if their lists differ in order only and items with one name
have kept theirs (`Snapshot.Rearranged.ofSnapshot_eq`).
-/

namespace NetAudit

/-! ## Lists in another order

All that a table keeps of a list is the last item of each name. If items with one name keep their
order, that item is the same. -/

section Rearranges

variable {α κ : Type} [DecidableEq κ]

/-- The second list has the items of the first, perhaps in another order, in which items with one
name have kept theirs. -/
structure Rearranges (name : α → κ) (xs ys : List α) : Prop where
  perm : ys.Perm xs
  kept : ∀ k, ys.filter (fun x => name x = k) = xs.filter fun x => name x = k

/-- The last item with a name. -/
def lastNamed? (name : α → κ) (xs : List α) (k : κ) : Option α :=
  (xs.filter fun x => name x = k).getLast?

theorem Rearranges.lastNamed?_eq {name : α → κ} {xs ys : List α} (h : Rearranges name xs ys) :
    lastNamed? name ys = lastNamed? name xs := by
  funext k
  rw [lastNamed?, h.kept, lastNamed?]

variable [Ord κ] [Std.TransOrd κ] [Std.LawfulEqOrd κ]

/-- Of several items with one name the last one stays in a table. -/
theorem OrderedMap.find?_foldl_insert (name : α → κ) (xs : List α) (m : OrderedMap κ α) (k : κ) :
    (xs.foldl (fun m x => m.insert (name x) x) m).find? k =
      (lastNamed? name xs k).or (m.find? k) := by
  induction xs generalizing m with
  | nil => rfl
  | cons x xs ih =>
      rw [List.foldl_cons, ih, find?_insert, lastNamed?, lastNamed?, List.filter_cons]
      by_cases hk : name x = k
      · rw [if_pos hk.symm, if_pos (decide_eq_true hk), List.getLast?_cons]
        cases (xs.filter fun x => name x = k).getLast? <;> rfl
      · rw [if_neg (Ne.symm hk), if_neg (by simpa using hk)]

end Rearranges

/-- The lists of the second snapshot are those of the first in another order, in which items with
one name have kept theirs. -/
structure Snapshot.Rearranged (s s' : Snapshot) : Prop where
  devices : Rearranges DeviceInfo.id s.devices s'.devices
  tasks : Rearranges TaskInfo.id s.tasks s'.tasks
  measurements : Rearranges Measurement.id s.measurements s'.measurements

/-! ## The tables of an archive

A snapshot is loaded item by item into one of the three tables, and no item changes another
table. -/

namespace Archive

section Deliveries

variable (a : Archive)

theorem foldl_insertDevice (ds : List DeviceInfo) : ds.foldl insertDevice a =
    { a with devices := ds.foldl (fun m d => m.insert d.id d) a.devices } := by
  induction ds generalizing a with
  | nil => rfl
  | cons d ds ih => exact ih (a.insertDevice d)

theorem foldl_insertTask (ts : List TaskInfo) : ts.foldl insertTask a =
    { a with tasks := ts.foldl (fun m t => m.insert t.id t) a.tasks } := by
  induction ts generalizing a with
  | nil => rfl
  | cons t ts ih => exact ih (a.insertTask t)

/-- Measurements that are delivered stand in their table, and change nothing else. -/
theorem foldl_insertMeasurement (ms : List Measurement) :
    ∃ named, ms.foldl insertMeasurement a =
      { a with
        measurements := ms.foldl (fun m x => m.insert x.id x) a.measurements
        named } := by
  induction ms generalizing a with
  | nil => exact ⟨a.named, rfl⟩
  | cons m ms ih => exact ih (a.insertMeasurement m)

end Deliveries

variable (first : Nat) (s : Snapshot)

/-- **The tables of a snapshot**, and no results yet. -/
theorem ofSnapshot_eq : ∃ named, ofSnapshot first s =
    { first
      measurements := s.measurements.foldl (fun m x => m.insert x.id x) .empty
      devices := s.devices.foldl (fun m d => m.insert d.id d) .empty
      tasks := s.tasks.foldl (fun m t => m.insert t.id t) .empty
      summaries := []
      entries := []
      named } := by
  have hloaded : ofSnapshot first s = s.measurements.foldl insertMeasurement
      (s.tasks.foldl insertTask (s.devices.foldl insertDevice (empty first))) := rfl
  rw [hloaded, foldl_insertDevice, foldl_insertTask]
  obtain ⟨named, heq⟩ := foldl_insertMeasurement
    { empty first with
      devices := s.devices.foldl (fun m d => m.insert d.id d) .empty
      tasks := s.tasks.foldl (fun m t => m.insert t.id t) .empty } s.measurements
  exact ⟨named, heq⟩

theorem find?_devices_ofSnapshot (id : DeviceId) :
    (ofSnapshot first s).devices.find? id = lastNamed? DeviceInfo.id s.devices id := by
  obtain ⟨named, heq⟩ := ofSnapshot_eq first s
  rw [heq, OrderedMap.find?_foldl_insert, OrderedMap.find?_empty, Option.or_none]

theorem find?_tasks_ofSnapshot (id : TaskId) :
    (ofSnapshot first s).tasks.find? id = lastNamed? TaskInfo.id s.tasks id := by
  obtain ⟨named, heq⟩ := ofSnapshot_eq first s
  rw [heq, OrderedMap.find?_foldl_insert, OrderedMap.find?_empty, Option.or_none]

/-- **Of several measurements with one name the last one is stored.** -/
theorem find?_measurements_ofSnapshot (id : MeasurementId) :
    (ofSnapshot first s).measurements.find? id =
      lastNamed? Measurement.id s.measurements id := by
  obtain ⟨named, heq⟩ := ofSnapshot_eq first s
  rw [heq, OrderedMap.find?_foldl_insert, OrderedMap.find?_empty, Option.or_none]

theorem ofSnapshot_frame : (ofSnapshot first s).first = first ∧
    (ofSnapshot first s).summaries = [] ∧ (ofSnapshot first s).entries = [] := by
  obtain ⟨named, heq⟩ := ofSnapshot_eq first s
  rw [heq]
  exact ⟨rfl, rfl, rfl⟩

end Archive

namespace Snapshot.Rearranged

variable {s s' : Snapshot} (h : s.Rearranged s')

include h

theorem devices_eq (first first' : Nat) :
    (Archive.ofSnapshot first' s').devices = (Archive.ofSnapshot first s).devices := by
  apply OrderedMap.ext_find?
  intro id
  rw [Archive.find?_devices_ofSnapshot, Archive.find?_devices_ofSnapshot, h.devices.lastNamed?_eq]

theorem tasks_eq (first first' : Nat) :
    (Archive.ofSnapshot first' s').tasks = (Archive.ofSnapshot first s).tasks := by
  apply OrderedMap.ext_find?
  intro id
  rw [Archive.find?_tasks_ofSnapshot, Archive.find?_tasks_ofSnapshot, h.tasks.lastNamed?_eq]

theorem measurements_eq (first first' : Nat) :
    (Archive.ofSnapshot first' s').measurements = (Archive.ofSnapshot first s).measurements := by
  apply OrderedMap.ext_find?
  intro id
  rw [Archive.find?_measurements_ofSnapshot, Archive.find?_measurements_ofSnapshot,
    h.measurements.lastNamed?_eq]

/-- **The order of delivery is not to be seen in an archive.** -/
theorem ofSnapshot_eq (first : Nat) : Archive.ofSnapshot first s' = Archive.ofSnapshot first s := by
  have hdevices := h.devices_eq first first
  have htasks := h.tasks_eq first first
  have hmeasurements := h.measurements_eq first first
  obtain ⟨hfirst, hsummaries, hentries⟩ := Archive.ofSnapshot_frame first s
  obtain ⟨hfirst', hsummaries', hentries'⟩ := Archive.ofSnapshot_frame first s'
  rw [Archive.mk.injEq]
  exact ⟨hfirst'.trans hfirst.symm, hmeasurements, hdevices, htasks,
    hsummaries'.trans hsummaries.symm, hentries'.trans hentries.symm⟩

end Snapshot.Rearranged

end NetAudit
