import NetAudit.Proofs.Lists
import NetAudit.Proofs.OrderedMap
import NetAudit.Run.Execute
import NetAudit.Store.Archive

/-!
# What a query lists

A query of an archive is about a list of measurements: those that match, by time and then by name,
up to the limit. Three facts about that list carry all that is said about streams and runs:

* `nodup_ids_listed` — no name stands in it twice;
* `listed_pairwise` — it is in order;
* `listed_of_values_eq_map` — a change of tasks alone changes the items and moves none, so that
  `listed_insertMeasurement_withoutTask` holds: clearing a task changes one item.
-/

namespace NetAudit

/-! ## A measurement without its task

Measurements are compared by what is left of them without their tasks, as no query looks at a
task. -/

@[simp] theorem Measurement.withoutTask_id (m : Measurement) : m.withoutTask.id = m.id := rfl

@[simp] theorem Measurement.withoutTask_device (m : Measurement) :
    m.withoutTask.device = m.device := rfl

@[simp] theorem Measurement.withoutTask_task (m : Measurement) : m.withoutTask.task = none := rfl

/-- The measurements are the same but for their tasks. -/
def Measurement.SameButTask (m n : Measurement) : Prop := m.withoutTask = n.withoutTask

section SameButTask

variable {m n : Measurement}

theorem Measurement.withoutTask_sameButTask (m : Measurement) : m.withoutTask.SameButTask m := rfl

theorem Measurement.SameButTask.id_eq (h : m.SameButTask n) : m.id = n.id := by
  unfold SameButTask at h
  rw [← m.withoutTask_id, h, n.withoutTask_id]

theorem Measurement.SameButTask.device_eq (h : m.SameButTask n) : m.device = n.device := by
  unfold SameButTask at h
  rw [← m.withoutTask_device, h, n.withoutTask_device]

theorem Measurement.SameButTask.kind_eq (h : m.SameButTask n) : m.kind = n.kind := by
  unfold SameButTask at h
  show m.withoutTask.kind = _
  rw [h]
  rfl

theorem Query.isMatch_congr (h : m.SameButTask n) (q : Query) : q.isMatch m = q.isMatch n := by
  unfold Measurement.SameButTask at h
  show q.isMatch m.withoutTask = q.isMatch n.withoutTask
  rw [h]

end SameButTask

namespace Archive

/-! ## Order

The order of a query is by time and then by name. It is total, and on names that are distinct no two
measurements are equal in it. -/

/-- The order of measurements is that of their times and names. -/
theorem comesFirst_eq (m n : Measurement) :
    comesFirst m n =
      (compareLex (compareOn Measurement.timestamp) (compareOn Measurement.id) m n).isLE := rfl

theorem comesFirst_trans (l m n : Measurement) (h₁ : comesFirst l m = true)
    (h₂ : comesFirst m n = true) : comesFirst l n = true := by
  rw [comesFirst_eq] at *
  exact Std.TransCmp.isLE_trans h₁ h₂

theorem comesFirst_total (m n : Measurement) : (comesFirst m n || comesFirst n m) = true := by
  have hswap : compareLex (compareOn Measurement.timestamp) (compareOn Measurement.id) n m =
      (compareLex (compareOn Measurement.timestamp) (compareOn Measurement.id) m n).swap :=
    Std.OrientedCmp.eq_swap
  rw [comesFirst_eq, comesFirst_eq, hswap]
  cases compareLex (compareOn Measurement.timestamp) (compareOn Measurement.id) m n <;> rfl

/-! ## The table of measurements

The table has its own order, by name alone, and each name once. -/

theorem find?_insertMeasurement (a : Archive) (m : Measurement) (id : MeasurementId) :
    (a.insertMeasurement m).measurements.find? id =
      if id = m.id then some m else a.measurements.find? id := OrderedMap.find?_insert _ _ _ _

/-- What stands in the table is found under its own name. -/
theorem mem_values_iff (a : Archive) (m : Measurement) :
    m ∈ a.measurements.values ↔ a.measurements.find? m.id = some m := by
  unfold OrderedMap.values
  rw [OrderedMap.find?_eq_some_iff, List.mem_map]
  constructor
  · rintro ⟨row, hrow, rfl⟩
    have hname := a.named row hrow
    rw [hname]
    exact hrow
  · intro hrow
    exact ⟨_, hrow, rfl⟩

theorem map_id_values (a : Archive) : a.measurements.values.map (·.id) = a.measurements.keys := by
  unfold OrderedMap.values OrderedMap.keys
  rw [List.map_map]
  exact List.map_congr_left fun row hrow => a.named row hrow

theorem nodup_ids_values (a : Archive) : (a.measurements.values.map (·.id)).Nodup := by
  rw [map_id_values]
  exact a.measurements.nodup_keys

/-! ## The list of a query

The list is part of what matches, sorted; all that stands in it is found in the table under its own
name. -/

theorem matching_perm (a : Archive) (q : Query) :
    (a.matching q).Perm (a.measurements.values.filter q.isMatch) := List.mergeSort_perm _ _

theorem listed_eq_matching {q : Query} (hq : q.limit = none) (a : Archive) :
    a.listed q = a.matching q := by
  unfold listed
  rw [hq]

/-- What stands in its order already is listed as it stands. -/
theorem listed_eq_of_pairwise {a : Archive} {q : Query} (hq : q.limit = none)
    (h : (a.measurements.values.filter q.isMatch).Pairwise fun m n => comesFirst m n = true) :
    a.listed q = a.measurements.values.filter q.isMatch := by
  rw [listed_eq_matching hq]
  exact List.mergeSort_of_pairwise h

theorem listed_sublist (a : Archive) (q : Query) : (a.listed q).Sublist (a.matching q) := by
  unfold listed
  split
  · exact .refl _
  · exact List.take_sublist _ _

/-- What a query lists stands in the table, and matches. -/
theorem find?_of_mem_listed {a : Archive} {q : Query} {m : Measurement} (h : m ∈ a.listed q) :
    a.measurements.find? m.id = some m ∧ q.isMatch m = true := by
  have hmatch := (a.matching_perm q).mem_iff.1 ((a.listed_sublist q).subset h)
  obtain ⟨hvalue, hq⟩ := List.mem_filter.1 hmatch
  exact ⟨(a.mem_values_iff m).1 hvalue, hq⟩

/-- Without a limit, all that match are listed. -/
theorem mem_listed_iff {a : Archive} {q : Query} (hq : q.limit = none) (m : Measurement) :
    m ∈ a.listed q ↔ a.measurements.find? m.id = some m ∧ q.isMatch m = true := by
  rw [listed_eq_matching hq, (a.matching_perm q).mem_iff, List.mem_filter, mem_values_iff]

theorem nodup_ids_listed (a : Archive) (q : Query) : ((a.listed q).map (·.id)).Nodup := by
  have hmatching : ((a.matching q).map (·.id)).Nodup := by
    refine ((a.matching_perm q).map (·.id)).nodup_iff.2 ?_
    exact a.nodup_ids_values.sublist (List.filter_sublist.map _)
  exact hmatching.sublist ((a.listed_sublist q).map _)

theorem listed_pairwise (a : Archive) (q : Query) :
    (a.listed q).Pairwise fun m n => comesFirst m n = true := by
  have hsorted := List.pairwise_mergeSort comesFirst_trans comesFirst_total
    (a.measurements.values.filter q.isMatch)
  exact hsorted.sublist (a.listed_sublist q)

theorem length_listed_le (a : Archive) (q : Query) : (a.listed q).length ≤ a.measurements.size := by
  calc (a.listed q).length ≤ (a.matching q).length := (a.listed_sublist q).length_le
    _ = (a.measurements.values.filter q.isMatch).length := (a.matching_perm q).length_eq
    _ ≤ a.measurements.values.length := List.length_filter_le _ _
    _ = a.measurements.size := List.length_map _

theorem length_listed_le_limit {a : Archive} {q : Query} {n : Nat} (h : q.limit = some n) :
    (a.listed q).length ≤ n := by
  unfold listed
  rw [h]
  exact List.length_take_le _ _

end Archive

/-! ## What a query wants

`Query.Wants` says what a query lists without a word of sorting or of tables. -/

/-- The one measurement comes before the other, by time and then by name. -/
def Measurement.Precedes (m n : Measurement) : Prop :=
  (compare m.timestamp n.timestamp).then (compare m.id n.id) = .lt

/-- The measurements that a query wants: those that are stored and match, by time and those of one
time by name, the first up to the limit. -/
structure Query.Wants (q : Query) (a : Archive) (ms : List Measurement) : Prop where
  stored : ∀ m ∈ ms, a.measurements.find? m.id = some m ∧ q.isMatch m = true
  distinct : (ms.map (·.id)).Nodup
  ordered : ms.Pairwise Measurement.Precedes
  limited : ∀ n, q.limit = some n → ms.length ≤ n
  /-- What is stored and matches is missing only behind a full list. -/
  complete : ∀ m, a.measurements.find? m.id = some m → q.isMatch m = true → m ∉ ms →
    q.limit = some ms.length ∧ ∀ n ∈ ms, n.Precedes m

namespace Archive

variable {a : Archive} {q : Query}

theorem precedes_of_comesFirst {m n : Measurement} (hm : a.measurements.find? m.id = some m)
    (hn : a.measurements.find? n.id = some n) (hne : m ≠ n) (h : comesFirst m n = true) :
    m.Precedes n := by
  unfold Measurement.Precedes
  cases hc : (compare m.timestamp n.timestamp).then (compare m.id n.id) with
  | lt => rfl
  | gt =>
      unfold comesFirst at h
      rw [hc] at h
      cases h
  | eq =>
      have hid : m.id = n.id := Std.LawfulEqCmp.eq_of_compare (Ordering.then_eq_eq.1 hc).2
      rw [hid, hn] at hm
      exact absurd (Option.some.inj hm).symm hne

theorem wants_listed (a : Archive) (q : Query) : q.Wants a (a.listed q) where
  stored m hm := find?_of_mem_listed hm
  distinct := a.nodup_ids_listed q
  ordered := by
    have hdistinct : (a.listed q).Pairwise fun m n => m ≠ n := by
      have hnodup := a.nodup_ids_listed q
      rw [List.nodup_iff_pairwise_ne, List.pairwise_map] at hnodup
      exact hnodup.imp fun hne heq => hne (congrArg Measurement.id heq)
    refine (hdistinct.and (a.listed_pairwise q)).imp_of_mem ?_
    intro m n hm hn h
    exact precedes_of_comesFirst (find?_of_mem_listed hm).1 (find?_of_mem_listed hn).1 h.1 h.2
  limited n hn := length_listed_le_limit hn
  complete := by
    intro m hstored hmatch hm
    have hmem : m ∈ a.matching q := by
      rw [(a.matching_perm q).mem_iff, List.mem_filter]
      exact ⟨(a.mem_values_iff m).2 hstored, hmatch⟩
    cases hlimit : q.limit with
    | none =>
        rw [listed_eq_matching hlimit] at hm
        exact absurd hmem hm
    | some n =>
        have hlisted : a.listed q = (a.matching q).take n := by
          unfold listed
          rw [hlimit]
        have hsorted : (a.matching q).Pairwise fun m n => comesFirst m n = true :=
          List.pairwise_mergeSort comesFirst_trans comesFirst_total _
        -- What is not among the first `n` comes after all of them.
        rw [hlisted] at hm ⊢
        obtain ⟨hlength, hfirst⟩ := take_of_not_mem hsorted hmem hm
        refine ⟨congrArg some hlength.symm, fun k hk => ?_⟩
        exact precedes_of_comesFirst (find?_of_mem_listed (hlisted ▸ hk)).1 hstored
          (fun heq => hm (heq ▸ hk)) (hfirst k hk)

/-! ## Changes of tasks

A change of tasks keeps the match and the order of all measurements. So the list of a query changes
item by item. -/

theorem comesFirst_congr {m m' n n' : Measurement} (hm : m.SameButTask m') (hn : n.SameButTask n') :
    comesFirst m n = comesFirst m' n' := by
  unfold Measurement.SameButTask at hm hn
  show comesFirst m.withoutTask n.withoutTask = comesFirst m'.withoutTask n'.withoutTask
  rw [hm, hn]

end Archive

/-- What a query picks from measurements. -/
def Query.pick (q : Query) (ms : List Measurement) : List Measurement :=
  match q.limit with
  | none => (ms.filter q.isMatch).mergeSort Archive.comesFirst
  | some n => ((ms.filter q.isMatch).mergeSort Archive.comesFirst).take n

/-- Neither the match nor the order looks at a task, so a query picks the same. -/
theorem Query.pick_map {f : Measurement → Measurement} (hf : ∀ m, (f m).SameButTask m) (q : Query)
    (ms : List Measurement) : q.pick (ms.map f) = (q.pick ms).map f := by
  have hsort : ((ms.map f).filter q.isMatch).mergeSort Archive.comesFirst =
      ((ms.filter q.isMatch).mergeSort Archive.comesFirst).map f := by
    rw [List.filter_map, List.map_mergeSort fun m _ n _ =>
      (Archive.comesFirst_congr (hf m) (hf n)).symm]
    congr 2
    exact List.filter_congr fun m _ => q.isMatch_congr (hf m)
  unfold pick
  rw [hsort]
  cases q.limit with
  | none => rfl
  | some n => exact List.map_take.symm

namespace Archive

theorem listed_eq_pick (a : Archive) (q : Query) : a.listed q = q.pick a.measurements.values := rfl

/-- **A change of tasks moves nothing.** -/
theorem listed_of_values_eq_map {a b : Archive} {f : Measurement → Measurement}
    (hf : ∀ m, (f m).SameButTask m) (h : b.measurements.values = a.measurements.values.map f)
    (q : Query) : b.listed q = (a.listed q).map f := by
  rw [listed_eq_pick, h, q.pick_map hf]
  rfl

/-- The measurements after the task of the one called `id` was cleared. -/
def clearTask (id : MeasurementId) (m : Measurement) : Measurement :=
  if m.id = id then m.withoutTask else m

theorem clearTask_sameButTask (id : MeasurementId) (m : Measurement) :
    (clearTask id m).SameButTask m := by
  unfold clearTask
  split <;> rfl

/-- Clearing the task of a stored measurement does so in the list of all measurements. -/
theorem values_insertMeasurement_withoutTask {a : Archive} {m : Measurement}
    (h : a.measurements.find? m.id = some m) :
    (a.insertMeasurement m.withoutTask).measurements.values =
      a.measurements.values.map (clearTask m.id) := by
  have hrows : (a.measurements.insert m.id m.withoutTask).toList =
      a.measurements.toList.map fun row => (row.1, clearTask m.id row.2) := by
    rw [OrderedMap.toList_insert_of_find? _ h]
    apply List.map_congr_left
    rintro ⟨id, n⟩ hrow
    have hid : n.id = id := a.named _ hrow
    by_cases hm : id = m.id
    -- What stands under the name of `m` is `m`.
    · have hn := (OrderedMap.find?_eq_some_iff a.measurements id n).2 hrow
      rw [hm, h] at hn
      obtain rfl := Option.some.inj hn
      simp [clearTask, hm]
    · simp [clearTask, hm, hid]
  show (a.measurements.insert m.id m.withoutTask).toList.map (·.2) = _
  rw [hrows]
  simp [OrderedMap.values]

/-- A query lists what it listed before, with the one task cleared. -/
theorem listed_insertMeasurement_withoutTask {a : Archive} {m : Measurement}
    (h : a.measurements.find? m.id = some m) (q : Query) :
    (a.insertMeasurement m.withoutTask).listed q = (a.listed q).map (clearTask m.id) :=
  listed_of_values_eq_map (clearTask_sameButTask m.id) (values_insertMeasurement_withoutTask h) q

/-- What is listed after a measurement stays as it is when the task of that measurement is
cleared. -/
theorem listed_after_clearing {a : Archive} {q : Query} {m : Measurement}
    {done rest : List Measurement} (h : a.listed q = done ++ m :: rest) :
    (a.insertMeasurement m.withoutTask).listed q =
      done.map (clearTask m.id) ++ m.withoutTask :: rest := by
  have hmem : m ∈ a.listed q := by
    rw [h]
    simp
  rw [listed_insertMeasurement_withoutTask (find?_of_mem_listed hmem).1, h, List.map_append,
    List.map_cons]
  have hnodup := a.nodup_ids_listed q
  rw [h, List.map_append, List.map_cons] at hnodup
  have hfresh : m.id ∉ rest.map (·.id) := (List.nodup_cons.1 (List.nodup_append.1 hnodup).2.1).1
  -- No name stands twice, so what comes after `m` is not cleared.
  have hstay : ∀ n ∈ rest, clearTask m.id n = id n := by
    intro n hn
    have hne : n.id ≠ m.id := fun heq => hfresh (heq ▸ List.mem_map_of_mem hn)
    simp [clearTask, hne]
  rw [List.map_congr_left hstay, List.map_id]
  simp [clearTask]

end Archive

/-! ## The records of a run

A run asks for what lies in its window. The records are given in the terms of the run, and they are
the list of its query. -/

/-- The query of a window is for what lies in it. -/
theorem Query.isMatch_ofWindow (w : Window) (limit : Option Nat) :
    (ofWindow w limit).isMatch = fun m => w.contains m.timestamp := by
  funext m
  simp [ofWindow, isMatch, Window.contains]

namespace Run

/-- The records that a run is about: those in its window, by time and then by name, up to its
limit. -/
def records (r : Run) (a : Archive) : List Measurement :=
  let ms := (a.measurements.values.filter fun m => r.window.contains m.timestamp).mergeSort
    Archive.comesFirst
  match r.limit with
  | none => ms
  | some n => ms.take n

/-- The records of a run are what its query lists. -/
theorem records_eq_listed (r : Run) (a : Archive) : r.records a = a.listed r.query := by
  unfold records Archive.listed Archive.matching query
  rw [Query.isMatch_ofWindow]
  rfl

section Stored

variable {r : Run} {a : Archive} {m : Measurement}

/-- A record of a run is found under its name. -/
theorem find?_of_mem_records (h : m ∈ r.records a) : a.measurements.find? m.id = some m := by
  rw [r.records_eq_listed] at h
  exact (Archive.find?_of_mem_listed h).1

theorem isStored_of_mem_records (h : m ∈ r.records a) :
    a.measurements.contains m.id = true := by
  unfold OrderedMap.contains
  rw [find?_of_mem_records h]
  rfl

end Stored

end Run

end NetAudit
