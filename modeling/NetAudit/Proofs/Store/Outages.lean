import NetAudit.Proofs.Comparison
import NetAudit.Proofs.Store.Paging

/-!
# Stores with outages

`Outages` say of each call of a store whether it fails. A call that fails does nothing else, and all
others do to an archive what its own store does. So the store of an archive is the store without
outages (`Outages.store_follows`).
-/

namespace NetAudit

/-- Which calls of a store fail, and how. -/
structure Outages where
  /-- Queries, by their cursor. -/
  page : Option String → Option StoreError := fun _ => none
  /-- Look-ups of devices. -/
  device : DeviceId → Option StoreError := fun _ => none
  /-- Look-ups of tasks, by the number of those before. -/
  task : Nat → Option StoreError := fun _ => none
  /-- Writes of measurements. -/
  measurement : MeasurementId → Option StoreError := fun _ => none
  /-- Writes of summaries and entries, by the number of summaries and entries that are stored. -/
  result : Nat → Option StoreError := fun _ => none

/-- The number of summaries and entries. -/
def Archive.resultCount (a : Archive) : Nat := a.summaries.length + a.entries.length

namespace Outages

/-- An archive, and how many tasks were looked up in it. -/
structure State where
  archive : Archive
  lookups : Nat

/-- An operation, unless it fails. -/
def guardOp {σ α : Type} (fault : Option StoreError) (op : StoreOp σ α) : StoreOp σ α := fun s =>
  match fault with
  | some e => (.error e, s)
  | none => op s

/-- The store of an archive, with outages. -/
def store (o : Outages) : Store State :=
  let sound := Archive.store.zoom State.archive fun a s => { s with archive := a }
  { sound with
    query := fun q n cursor => guardOp (o.page cursor) (sound.query q n cursor)
    device := fun id => guardOp (o.device id) (sound.device id)
    task := fun id s =>
      guardOp (o.task s.lookups) (sound.task id) { s with lookups := s.lookups + 1 }
    persistMeasurement := fun m => guardOp (o.measurement m.id) (sound.persistMeasurement m)
    persistSummary := fun x s => guardOp (o.result s.archive.resultCount) (sound.persistSummary x) s
    persistEntry := fun e s => guardOp (o.result s.archive.resultCount) (sound.persistEntry e) s }

variable (o : Outages)

/-! ## What the calls do

Each call is the call of the archive, guarded by the outage for it. -/

/-- The store serves the pages of its archive, but for those that fail. -/
theorem servesPages : o.store.ServesPages State.archive o.page where
  query q n cursor s := by
    show guardOp (o.page cursor) _ s = _
    unfold guardOp
    cases o.page cursor <;> rfl
  pageBound s := Nat.lt_succ_self _

theorem device_eq (id : DeviceId) (s : State) :
    o.store.device id s =
      (match o.device id with
        | some e => .error e
        | none => .ok (s.archive.devices.find? id), s) := by
  show guardOp (o.device id) _ s = _
  unfold guardOp
  cases o.device id <;> rfl

theorem task_eq (id : TaskId) (s : State) :
    o.store.task id s =
      (match o.task s.lookups with
        | some e => .error e
        | none => .ok (s.archive.tasks.find? id), ⟨s.archive, s.lookups + 1⟩) := by
  show guardOp (o.task s.lookups) _ _ = _
  unfold guardOp
  cases o.task s.lookups <;> rfl

theorem persistMeasurement_eq {m : Measurement} {s : State}
    (h : s.archive.measurements.contains m.id = true) :
    o.store.persistMeasurement m s =
      match o.measurement m.id with
      | some e => (.error e, s)
      | none => (.ok (), ⟨s.archive.insertMeasurement m, s.lookups⟩) := by
  have hwrite : Archive.replaceMeasurement m s.archive =
      (.ok (), s.archive.insertMeasurement m) := if_pos h
  show guardOp (o.measurement m.id) _ s = _
  unfold guardOp
  cases o.measurement m.id with
  | some e => rfl
  | none =>
      show ((Archive.replaceMeasurement m s.archive).1,
        (⟨(Archive.replaceMeasurement m s.archive).2, s.lookups⟩ : State)) = _
      rw [hwrite]

/-- The store without outages follows that of its archive. -/
theorem store_follows : (store {}).Follows State.archive Archive.store where
  query _ _ _ _ := rfl
  device _ _ := rfl
  task _ _ := rfl
  persistMeasurement _ _ := rfl
  persistSummary _ _ := rfl
  persistEntry _ _ := rfl
  pageBound _ := rfl

end Outages

end NetAudit
