import Mathlib.Data.List.Forall2
import NetAudit.Proofs.Store.Listing

/-!
# Archives in which tasks have been cleared

All that repairs do to measurements is to clear their tasks. `Archive.ClearsTo` compares two
archives by that: the second one has the measurements of the first, each with its task or without.
This is an order, and a query lists the same on both, page by page, but for tasks that were cleared.
-/

namespace NetAudit

/-! ## Measurements

A measurement can be cleared once, and then it stays as it is. -/

/-- The second measurement is the first one, with its task or without. -/
def Measurement.ClearsTo (m n : Measurement) : Prop := n = m ∨ n = m.withoutTask

namespace Measurement.ClearsTo

variable {k m n : Measurement}

theorem refl (m : Measurement) : m.ClearsTo m := .inl rfl

theorem withoutTask (m : Measurement) : m.ClearsTo m.withoutTask := .inr rfl

theorem trans (hkm : k.ClearsTo m) (hmn : m.ClearsTo n) : k.ClearsTo n := by
  rcases hkm with rfl | rfl
  · exact hmn
  · rcases hmn with rfl | rfl
    · exact .withoutTask k
    · exact .withoutTask k

theorem antisymm (hmn : m.ClearsTo n) (hnm : n.ClearsTo m) : m = n := by
  rcases hnm with rfl | rfl
  · rfl
  · rcases hmn with hn | hn <;> exact hn.symm

theorem sameButTask (h : m.ClearsTo n) : n.SameButTask m := by
  rcases h with rfl | rfl <;> rfl

/-- Without a task there is nothing to clear. -/
theorem eq_withoutTask (h : m.withoutTask.ClearsTo n) : n = m.withoutTask := by
  rcases h with rfl | rfl <;> rfl

theorem of_sameButTask (h : m.SameButTask n) : m.ClearsTo n.withoutTask := .inr h.symm

end Measurement.ClearsTo

namespace Archive

/-! ## Archives

The order on archives is that on the measurements of each name. It has no room for other changes, so
two archives that are cleared to each other have the same measurements. -/

theorem find?_clearing (a : Archive) (m : Measurement) (id : MeasurementId) :
    (a.insertMeasurement m.withoutTask).measurements.find? id =
      if id = m.id then some m.withoutTask else a.measurements.find? id :=
  a.find?_insertMeasurement m.withoutTask id

/-- The second archive has the devices and tasks of the first, and its measurements, each with its
task or without. -/
structure ClearsTo (a b : Archive) : Prop where
  devices : b.devices = a.devices
  tasks : b.tasks = a.tasks
  measurements : ∀ id,
    Option.Rel Measurement.ClearsTo (a.measurements.find? id) (b.measurements.find? id)

namespace ClearsTo

variable {a b c : Archive} {m n : Measurement}

/-- The results of the archives play no part in it. -/
theorem of_measurements_eq (hdevices : b.devices = a.devices) (htasks : b.tasks = a.tasks)
    (hsame : b.measurements = a.measurements) : a.ClearsTo b := by
  refine ⟨hdevices, htasks, fun id => ?_⟩
  rw [hsame]
  cases a.measurements.find? id with
  | none => exact .none
  | some m => exact .some (.refl m)

theorem refl (a : Archive) : a.ClearsTo a := of_measurements_eq rfl rfl rfl

theorem exists_of_find? (h : a.ClearsTo b) {id : MeasurementId}
    (hm : a.measurements.find? id = some m) :
    ∃ n, b.measurements.find? id = some n ∧ m.ClearsTo n := by
  have hrel := h.measurements id
  rw [hm] at hrel
  generalize b.measurements.find? id = found at hrel ⊢
  cases hrel with
  | some hn => exact ⟨_, rfl, hn⟩

theorem find?_eq_none (h : a.ClearsTo b) {id : MeasurementId}
    (hm : a.measurements.find? id = none) : b.measurements.find? id = none := by
  have hrel := h.measurements id
  rw [hm] at hrel
  generalize b.measurements.find? id = found at hrel ⊢
  cases hrel with
  | none => rfl

theorem trans (hab : a.ClearsTo b) (hbc : b.ClearsTo c) : a.ClearsTo c := by
  refine ⟨hbc.devices.trans hab.devices, hbc.tasks.trans hab.tasks, fun id => ?_⟩
  cases hm : a.measurements.find? id with
  | none =>
      rw [hbc.find?_eq_none (hab.find?_eq_none hm)]
      exact .none
  | some m =>
      obtain ⟨n, hn, hmn⟩ := hab.exists_of_find? hm
      obtain ⟨k, hk, hnk⟩ := hbc.exists_of_find? hn
      rw [hk]
      exact .some (hmn.trans hnk)

/-- Archives that clear to each other hold the same measurements. -/
theorem antisymm (hab : a.ClearsTo b) (hba : b.ClearsTo a) : a.measurements = b.measurements := by
  refine OrderedMap.ext_find? fun id => ?_
  cases hm : a.measurements.find? id with
  | none => exact (hab.find?_eq_none hm).symm
  | some m =>
      obtain ⟨n, hn, hmn⟩ := hab.exists_of_find? hm
      obtain ⟨k, hk, hnk⟩ := hba.exists_of_find? hn
      obtain rfl : m = k := Option.some.inj (hm.symm.trans hk)
      rw [hn, hmn.antisymm hnk]

/-- **The measurements are the first ones, some of them cleared.** -/
theorem exists_mapValues (h : a.ClearsTo b) :
    ∃ f : Measurement → Measurement, (∀ m : Measurement, m.ClearsTo (f m)) ∧
      b.measurements = a.measurements.mapValues f := by
  -- Which records have been cleared is read off the second archive.
  refine ⟨fun m : Measurement =>
      if b.measurements.find? m.id = some m.withoutTask then m.withoutTask else m,
    fun m => ?_, OrderedMap.ext_find? fun id => ?_⟩
  · dsimp only
    split
    · exact .withoutTask m
    · exact .refl m
  · rw [OrderedMap.find?_mapValues]
    cases hm : a.measurements.find? id with
    | none => exact h.find?_eq_none hm
    | some m =>
        obtain rfl : m.id = id := a.named _ ((OrderedMap.find?_eq_some_iff _ _ _).1 hm)
        obtain ⟨n, hn, rfl | rfl⟩ := h.exists_of_find? hm
        · rw [hn, Option.map_some]
          split
          · next heq => rw [← heq, hn]
          · rfl
        · rw [Option.map_some, if_pos hn, hn]

theorem size_eq (h : a.ClearsTo b) : b.measurements.size = a.measurements.size := by
  obtain ⟨f, -, hf⟩ := h.exists_mapValues
  rw [hf]
  exact List.length_map _

/-- **A query lists the same on both**, but for tasks that were cleared. -/
theorem listed (h : a.ClearsTo b) (q : Query) :
    List.Forall₂ (fun m n => m.ClearsTo n ∧ a.measurements.find? m.id = some m ∧
      b.measurements.find? n.id = some n) (a.listed q) (b.listed q) := by
  obtain ⟨f, hf, hmap⟩ := h.exists_mapValues
  have hlisted : b.listed q = (a.listed q).map f := by
    apply listed_of_values_eq_map fun m => (hf m).sameButTask
    rw [hmap, OrderedMap.values_mapValues]
  rw [hlisted, List.forall₂_map_right_iff, List.forall₂_same]
  intro m hm
  have hfm : f m ∈ b.listed q := hlisted ▸ List.mem_map_of_mem hm
  exact ⟨hf m, (find?_of_mem_listed hm).1, (find?_of_mem_listed hfm).1⟩

/-- A query has the same errors and the same cursors in both archives, and records that differ in
tasks which were cleared. -/
theorem page (h : a.ClearsTo b) (q : Query) (n : Nat) (cursor : Option String) :
    (∃ e, a.page q n cursor = .error e ∧ b.page q n cursor = .error e) ∨
      ∃ p p' : Page, a.page q n cursor = .ok p ∧ b.page q n cursor = .ok p' ∧
        p'.cursor = p.cursor ∧
        List.Forall₂ (fun m n => m.ClearsTo n ∧ a.measurements.find? m.id = some m ∧
          b.measurements.find? n.id = some n) p.records p'.records := by
  have hlisted := h.listed q
  have hlen := hlisted.length_eq
  simp only [Archive.page, ← hlen]
  cases place? cursor (a.listed q).length with
  | error e => exact .inl ⟨e, rfl, rfl⟩
  | ok place =>
      refine .inr ⟨_, _, rfl, rfl, ?_, ?_⟩
      · simp only [pageFrom, hlen]
      · exact List.forall₂_take _ (List.forall₂_drop _ hlisted)

/-! ### Repairs

A repair that the cleared archive has seen already changes nothing between the two archives, and a
repair that both see keeps them as they were to each other. -/

/-- A repair clears a task. -/
theorem clear (hm : b.measurements.find? n.id = some m) (hsame : m.SameButTask n) :
    b.ClearsTo (b.insertMeasurement n.withoutTask) := by
  refine ⟨rfl, rfl, fun id => ?_⟩
  rw [find?_clearing]
  by_cases hid : id = n.id
  · rw [if_pos hid, hid, hm]
    exact .some (.of_sameButTask hsame)
  · rw [if_neg hid]
    exact (ClearsTo.refl b).measurements id

/-- A repair that the second archive has already, made in the first one. -/
theorem clear_left (h : a.ClearsTo b) (hn : b.measurements.find? n.id = some n.withoutTask) :
    (a.insertMeasurement n.withoutTask).ClearsTo b := by
  refine ⟨h.devices, h.tasks, fun id => ?_⟩
  rw [find?_clearing]
  by_cases hid : id = n.id
  · rw [if_pos hid, hid, hn]
    exact .some (.refl _)
  · rw [if_neg hid]
    exact h.measurements id

/-- A repair that is made in both archives. -/
theorem clear_both (h : a.ClearsTo b) (n : Measurement) :
    (a.insertMeasurement n.withoutTask).ClearsTo (b.insertMeasurement n.withoutTask) := by
  refine ⟨h.devices, h.tasks, fun id => ?_⟩
  rw [find?_clearing, find?_clearing]
  by_cases hid : id = n.id
  · rw [if_pos hid, if_pos hid]
    exact .some (.refl _)
  · rw [if_neg hid, if_neg hid]
    exact h.measurements id

/-- What was cleared stays so. -/
theorem find?_withoutTask (h : a.ClearsTo b) {id : MeasurementId}
    (hm : a.measurements.find? id = some m.withoutTask) :
    b.measurements.find? id = some m.withoutTask := by
  obtain ⟨n, hn, hclears⟩ := h.exists_of_find? hm
  rw [hn, hclears.eq_withoutTask]

end ClearsTo

end Archive

end NetAudit
