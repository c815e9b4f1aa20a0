import NetAudit.Dashboard.TopErrors
import NetAudit.Proofs.Action
import NetAudit.Proofs.Counts
import NetAudit.Proofs.Lists
import NetAudit.Proofs.Store.LookUps
import NetAudit.Store.Archive

/-!
# What the ranking of errors depends on

The ranking looks at the first entries of a store, and at each of their measurements once. So
entries of measurements that have one already make no difference to it, wherever the list is cut
(`TopErrors.ofStore_of_entries_append`).
-/

namespace NetAudit

/-- The error that a device has said for the measurement of a name. -/
def Archive.errorOf? (a : Archive) (id : MeasurementId) : Option String :=
  (a.measurements.find? id).bind Measurement.error?

/-! ## Counting in a store that is looked at

Each measurement is looked up in turn, and the first look-up that fails ends the count. -/

namespace View

variable (v : View)

/-- The error that a device has said for the measurement of a name, in a store that shows `v`. -/
def errorOf? (id : MeasurementId) : Option String :=
  (foundIn (v.measurement id)).bind Measurement.error?

/-- Why the first look-up of a measurement fails that does. -/
def faultAmong (ids : List MeasurementId) : Option StoreError :=
  ids.findSome? fun id => faultOf (v.measurement id)

theorem faultAmong_eq_none_iff {v : View} {ids : List MeasurementId} :
    v.faultAmong ids = none ↔ ∀ id ∈ ids, faultOf (v.measurement id) = none :=
  List.findSome?_eq_none_iff

theorem faultAmong_view (a : Archive) (ids : List MeasurementId) :
    a.view.faultAmong ids = none := faultAmong_eq_none_iff.2 fun _ _ => rfl

end View

namespace TopErrors

section Counting

variable {σ : Type} {store : Store σ} {states : σ → Prop} {v : View}

/-- One measurement more is counted by its error, unless it cannot be looked up. -/
theorem countError_ensures (h : store.Shows states v) (counts : Counts) (id : MeasurementId) :
    (countError store counts id).Ensures states (· = match faultOf (v.measurement id) with
      | some e => .error (.query e)
      | none => .ok ((v.errorOf? id).elim counts counts.bump)) := by
  refine .bind (.lookUp (h.measurement id) ?_)
  unfold View.errorOf?
  cases v.measurement id with
  | error e => rfl
  | ok found =>
      show Attempt.Ensures _ _ _
      cases hsaid : found.bind Measurement.error? <;>
        exact .pure (by simp [faultOf, foundIn, hsaid])

/-- **Measurements are counted by their errors**, unless one cannot be looked up. -/
theorem foldlM_countError_ensures (h : store.Shows states v) (ids : List MeasurementId)
    (counts : Counts) :
    (ids.foldlM (countError store) counts).Ensures states (· = match v.faultAmong ids with
      | some e => .error (.query e)
      | none => .ok ((ids.filterMap v.errorOf?).foldl Counts.bump counts)) := by
  induction ids generalizing counts with
  | nil => exact .pure rfl
  | cons id ids ih =>
      rw [List.foldlM_cons, List.filterMap_cons, View.faultAmong, List.findSome?_cons]
      refine .bind ((countError_ensures h counts id).mono ?_)
      rintro _ rfl
      cases faultOf (v.measurement id) with
      | some e => rfl
      | none => cases v.errorOf? id <;> exact ih _

/-- **The ranking of measurements**: what their devices have said is counted and ranked. -/
theorem ofMeasurements_ensures (h : store.Shows states v) (ids : List MeasurementId) (n : Nat) :
    (ofMeasurements store ids n).Ensures states (· = match v.faultAmong ids with
      | some e => .error (.query e)
      | none => .ok ((ranked (.ofNames (ids.filterMap v.errorOf?))).take n)) := by
  refine .bind ((foldlM_countError_ensures h ids .empty).mono ?_)
  rintro _ rfl
  cases v.faultAmong ids with
  | some e => rfl
  | none => exact .pure rfl

/-- **The ranking of a store** is that of the measurements of its first entries, each of them
once. -/
theorem ofStore_ensures (h : store.Shows states v) (limit n : Nat) :
    (ofStore store limit n).Ensures states (· = match v.entries limit with
      | .error e => .error (.query e)
      | .ok rows => match v.faultAmong (rows.map (·.value.measurement)).eraseDups with
        | some e => .error (.query e)
        | none => .ok ((ranked (.ofNames ((rows.map (·.value.measurement)).eraseDups.filterMap
            v.errorOf?))).take n)) := by
  refine .bind (.lookUp (h.entries limit) ?_)
  cases v.entries limit with
  | error e => rfl
  | ok rows => exact ofMeasurements_ensures h _ n

end Counting

/-- **The ranking counts each measurement of the first entries once.** -/
theorem ofStore_outcome (limit n : Nat) (a : Archive) :
    (ofStore Archive.store limit n).outcome a =
      (.ok ((ranked (.ofNames
        ((((a.entries.map (·.value.measurement)).take limit).eraseDups).filterMap
          a.errorOf?))).take n), a) := by
  obtain ⟨hstate, hanswer⟩ := ofStore_ensures a.store_shows limit n a rfl
  apply Prod.ext
  · rw [hanswer, ← List.map_take]
    show (match a.view.faultAmong _ with | some e => _ | none => _) = _
    rw [View.faultAmong_view]
    rfl
  · exact hstate

/-- More entries of measurements that have one make no difference to the ranking. -/
theorem ofStore_of_entries_append {a b : Archive} {rows : List (Stored EntryId Entry)}
    (hentries : b.entries = a.entries ++ rows)
    (hrows : rows.map (·.value.measurement) ⊆ a.entries.map (·.value.measurement))
    (herrors : b.errorOf? = a.errorOf?) (limit n : Nat) :
    ((ofStore Archive.store limit n).perform b).value =
      ((ofStore Archive.store limit n).perform a).value := by
  have ha := congrArg Prod.fst (ofStore_outcome limit n a)
  have hb := congrArg Prod.fst (ofStore_outcome limit n b)
  rw [hentries, List.map_append, eraseDups_take_append hrows, herrors] at hb
  exact hb.trans ha.symm

end TopErrors

end NetAudit
