import NetAudit.Proofs.Store.Listing
import NetAudit.Proofs.Windows

/-!
# The measurements of windows

The measurements of a window stand in their order, and an instant within it cuts that list in two
(`Archive.within_append`). So windows that follow each other share out the measurements of the whole
time among them: `Archive.within_eq_flatMap`.
-/

namespace NetAudit

open Calendar (Instant)

namespace Archive

variable (a : Archive)

/-- The measurements of a window, in their order. -/
def within (w : Window) : List Measurement := a.listed (.ofWindow w none)

theorem within_eq_records {r : Run} (h : r.limit = none) : r.records a = a.within r.window := by
  rw [r.records_eq_listed, Run.query, h]
  rfl

/-- The records of a run are the first ones of its window. -/
theorem records_sublist_within (r : Run) : (r.records a).Sublist (a.within r.window) := by
  rw [r.records_eq_listed]
  exact a.listed_sublist r.query

variable {a}

theorem mem_within_iff {w : Window} {m : Measurement} :
    m ∈ a.within w ↔ a.measurements.find? m.id = some m ∧ w.contains m.timestamp = true := by
  rw [within, mem_listed_iff rfl, Query.isMatch_ofWindow]

theorem comesFirst_of_lt {m n : Measurement} (h : m.timestamp < n.timestamp) :
    comesFirst m n = true := by
  unfold comesFirst
  rw [Instant.compare_eq_lt_iff.2 h]
  rfl

/-- No two stored measurements stand in the same place. -/
theorem eq_of_comesFirst {m n : Measurement} (hm : a.measurements.find? m.id = some m)
    (hn : a.measurements.find? n.id = some n) (h₁ : comesFirst m n = true)
    (h₂ : comesFirst n m = true) : m = n := by
  have heq : compareLex (compareOn Measurement.timestamp) (compareOn Measurement.id) m n = .eq := by
    rw [comesFirst_eq] at h₁ h₂
    exact Std.OrientedCmp.isLE_antisymm h₁ h₂
  have hid : m.id = n.id := by
    rw [compareLex_eq_eq] at heq
    exact Std.LawfulEqCmp.eq_of_compare heq.2
  rw [hid, hn] at hm
  exact (Option.some.inj hm).symm

theorem within_perm (a : Archive) (w : Window) :
    (a.within w).Perm (a.measurements.values.filter fun m => w.contains m.timestamp) := by
  have hperm := a.matching_perm (.ofWindow w none)
  rwa [Query.isMatch_ofWindow] at hperm

theorem within_append_perm (a : Archive) {start mid stop : Instant} (h₁ : start ≤ mid)
    (h₂ : mid ≤ stop) :
    (a.within ⟨start, stop⟩).Perm (a.within ⟨start, mid⟩ ++ a.within ⟨mid, stop⟩) := by
  -- The instant cuts the measurements of the whole window into those before it and the others.
  have hfirst : (a.measurements.values.filter fun m =>
      Window.contains ⟨start, stop⟩ m.timestamp).filter (fun m => m.timestamp < mid) =
        a.measurements.values.filter fun m => Window.contains ⟨start, mid⟩ m.timestamp := by
    rw [List.filter_filter]
    apply List.filter_congr
    intro m _
    rw [Bool.eq_iff_iff, Bool.and_eq_true, Window.contains_iff, Window.contains_iff,
      decide_eq_true_iff]
    constructor
    · exact fun h => ⟨h.2.1, h.1⟩
    · exact fun h => ⟨h.2, h.1, Instant.lt_of_lt_of_le h.2 h₂⟩
  have hsecond : (a.measurements.values.filter fun m =>
      Window.contains ⟨start, stop⟩ m.timestamp).filter (fun m => !decide (m.timestamp < mid)) =
        a.measurements.values.filter fun m => Window.contains ⟨mid, stop⟩ m.timestamp := by
    rw [List.filter_filter]
    apply List.filter_congr
    intro m _
    rw [Bool.eq_iff_iff, Bool.and_eq_true, Window.contains_iff, Window.contains_iff,
      Bool.not_eq_true', decide_eq_false_iff_not]
    constructor
    · exact fun h => ⟨h.1, h.2.2⟩
    · refine fun h => ⟨h.1, ?_, h.2⟩
      intro hlt
      exact h.1 (Instant.lt_of_lt_of_le hlt h₁)
  have hsplit := List.filter_append_perm (fun m : Measurement => decide (m.timestamp < mid))
    (a.measurements.values.filter fun m => Window.contains ⟨start, stop⟩ m.timestamp)
  rw [hfirst, hsecond] at hsplit
  have hparts := (a.within_perm ⟨start, mid⟩).append (a.within_perm ⟨mid, stop⟩)
  exact (a.within_perm ⟨start, stop⟩).trans (hsplit.symm.trans hparts.symm)

/-- **An instant cuts the measurements of a window in two.** -/
theorem within_append (a : Archive) {start mid stop : Instant} (h₁ : start ≤ mid)
    (h₂ : mid ≤ stop) :
    a.within ⟨start, stop⟩ = a.within ⟨start, mid⟩ ++ a.within ⟨mid, stop⟩ := by
  have hperm := a.within_append_perm h₁ h₂
  have hpairwise : (a.within ⟨start, mid⟩ ++ a.within ⟨mid, stop⟩).Pairwise fun m n =>
      comesFirst m n = true := by
    refine List.pairwise_append.2 ⟨a.listed_pairwise _, a.listed_pairwise _, ?_⟩
    intro m hm n hn
    have hbefore := (Window.contains_iff.1 (mem_within_iff.1 hm).2).2
    have hafter := (Window.contains_iff.1 (mem_within_iff.1 hn).2).1
    exact comesFirst_of_lt (Instant.lt_of_lt_of_le hbefore hafter)
  -- Both sides hold the same measurements, and no two of them stand in the same place.
  refine List.Perm.eq_of_pairwise ?_ (a.listed_pairwise _) hpairwise hperm
  intro m n hm hn
  exact eq_of_comesFirst (mem_within_iff.1 hm).1 (mem_within_iff.1 (hperm.mem_iff.2 hn)).1

theorem within_self (a : Archive) (t : Instant) : a.within ⟨t, t⟩ = [] := by
  apply List.eq_nil_iff_forall_not_mem.2
  intro m hm
  obtain ⟨hstart, hstop⟩ := Window.contains_iff.1 (mem_within_iff.1 hm).2
  exact hstart hstop

/-- **Windows that follow each other share out the measurements.** -/
theorem within_eq_flatMap (a : Archive) {ws : List Window} {t u : Instant}
    (h : Window.Tiles ws t u) : a.within ⟨t, u⟩ = ws.flatMap a.within := by
  induction h with
  | nil t => exact a.within_self t
  | @cons w ws u hw hws ih =>
      rw [List.flatMap_cons, ← ih]
      exact a.within_append (Instant.le_of_lt hw) hws.le

end Archive

end NetAudit
