import NetAudit.Proofs.Run.Views
import NetAudit.Proofs.Store.Windows

/-!
# Runs over windows that share no instant

A run touches no record outside its window. So runs over windows without a common instant do not see
each other: in whatever order they are made, each finds its records as they were in the beginning
(`Run.records_of_mem_stages`). For a window that is cut in two, this and the order of its records
give that nothing is lost: `Run.execute_splits`.
-/

namespace NetAudit

open Calendar (Instant)

namespace Run

/-! ## Runs that do not see each other

All that a run changes for others are the tasks of its own records. A run over a window that shares
no instant with it does not read these. -/

variable {a : Archive} {r q : Run} {rs : List Run}

theorem contains_of_mem_records {m : Measurement} (h : m ∈ r.records a) :
    r.window.contains m.timestamp = true :=
  (Archive.mem_within_iff.1 ((a.records_sublist_within r).subset h)).2

theorem not_mem_records_of_disjoint (h : r.window.Disjoint q.window) {m : Measurement}
    (hr : m ∈ r.records a) : m ∉ q.records a := by
  intro hq
  have hnot := h _ (contains_of_mem_records hr)
  rw [contains_of_mem_records hq] at hnot
  cases hnot

/-- A run finds its records as if there had been no run over other instants. -/
theorem records_leave_of_disjoint (h : r.window.Disjoint q.window) (a : Archive) :
    q.records (r.leave a) = q.records a := by
  rw [records_eq_listed, listed_leave, ← records_eq_listed]
  have hstay : ∀ m ∈ q.records a, r.settle a m = m := by
    intro m hm
    apply r.settle_of_not_mem
    exact fun hr => not_mem_records_of_disjoint h hr hm
  rw [List.map_congr_left hstay, List.map_id']

/-- **Runs over windows without a common instant** find their records as they were before all of
them. -/
theorem records_of_mem_stages (h : rs.Pairwise fun r q => r.window.Disjoint q.window)
    {p : Run × Archive} (hp : p ∈ stages a rs) : p.1.records p.2 = p.1.records a := by
  induction rs generalizing a with
  | nil => exact absurd hp List.not_mem_nil
  | cons r rs ih =>
      obtain ⟨hr, hrs⟩ := List.pairwise_cons.1 h
      rcases List.mem_cons.1 hp with rfl | hp
      · rfl
      · have hrun := List.mem_map_of_mem (f := (·.1)) hp
        rw [map_fst_stages] at hrun
        rw [ih hrs hp, records_leave_of_disjoint (hr _ hrun)]

theorem sums_of_mem_stages (h : rs.Pairwise fun r q => r.window.Disjoint q.window)
    {p : Run × Archive} (hp : p ∈ stages a rs) (unscheduled : List Window) :
    (p.1.reportOn p.2 unscheduled).Sums p.1.config a (p.1.records a) := by
  have hsame := sameButTasks_of_mem_stages hp
  have hsums := p.1.sums_reportOn p.2 unscheduled
  rw [records_of_mem_stages h hp] at hsums
  exact hsums.of_frame hsame.devices hsame.tasks

theorem found_of_mem_stages (h : rs.Pairwise fun r q => r.window.Disjoint q.window)
    {p : Run × Archive} (hp : p ∈ stages a rs) (k : Kind) :
    a.found (p.1.batch p.2).entries k =
      ((a.counted (p.1.records a) k).filter Measurement.isInvalid).map
        fun m => (m.id, m.errors) := by
  have hsame := sameButTasks_of_mem_stages hp
  rw [found_batch hsame, records_of_mem_stages h hp, Archive.counted_congr hsame.devices]

end Run

/-! ## A window cut in two

Records come in the order of time. So the records of the whole window are those of the first part,
and behind them those of the second one. -/

/-- What a report says is what two others say together. -/
structure Report.Splits (rep first second : Report) : Prop where
  records : ∀ k, rep.recordsOf k = first.recordsOf k + second.recordsOf k
  errors : ∀ k, rep.errorsOf k = first.errorsOf k + second.errorsOf k
  categories : ∀ k tag, rep.categoryOf k tag = first.categoryOf k tag + second.categoryOf k tag
  skipped : rep.skipped = first.skipped + second.skipped
  repaired : rep.repaired = first.repaired + second.repaired
  details : ∀ k, rep.detailsOf k = first.detailsOf k ++ second.detailsOf k

/-- **Reports of records in a row** say together what a report of all of them says. -/
theorem Report.Sums.splits {rep first second : Report} {c : Config} {a : Archive}
    {ms ns : List Measurement} (h : rep.Sums c a (ms ++ ns)) (h₁ : first.Sums c a ms)
    (h₂ : second.Sums c a ns) : rep.Splits first second where
  records k := by
    rw [h.records, h₁.records, h₂.records, a.counted_append, List.length_append]
  errors k := by
    rw [h.errors, h₁.errors, h₂.errors, a.counted_append, List.countP_append]
  categories k tag := by
    rw [h.categories, h₁.categories, h₂.categories, a.counted_append, List.flatMap_append,
      List.count_append]
  skipped := by rw [h.skipped, h₁.skipped, h₂.skipped, List.countP_append]
  repaired := by rw [h.repaired, h₁.repaired, h₂.repaired, List.countP_append]
  details k := by rw [h.details, h₁.details, h₂.details, List.flatMap_append]

namespace Run

/-- The run over all records between two instants, with a name and the time of its start. -/
def between (c : Config) (start stop : Instant) (n : String × Instant) : Run :=
  ⟨n.1, ⟨start, stop⟩, n.2, none, c⟩

theorem records_between (c : Config) (start stop : Instant) (n : String × Instant) (a : Archive) :
    (between c start stop n).records a = a.within ⟨start, stop⟩ :=
  a.within_eq_records rfl

/-- **Splitting a window loses nothing**: a run over it agrees with runs over its two parts, the
second of which finds what the first has left. -/
theorem execute_splits (c : Config) {start mid stop : Instant} (h₁ : start < mid) (h₂ : mid < stop)
    (n n₁ n₂ : String × Instant) (unscheduled : List Window) (a : Archive) :
    let whole := ((between c start stop n).execute Archive.store unscheduled).perform a
    let first := ((between c start mid n₁).execute Archive.store unscheduled).perform a
    let second := ((between c mid stop n₂).execute Archive.store unscheduled).perform first.state
    ∃ rep rep₁ rep₂ rows rows₁ rows₂,
      whole.value = .ok rep ∧ first.value = .ok rep₁ ∧ second.value = .ok rep₂ ∧
        rep.Splits rep₁ rep₂ ∧
        whole.state.entries = a.entries ++ rows ∧ first.state.entries = a.entries ++ rows₁ ∧
        second.state.entries = first.state.entries ++ rows₂ ∧
        ∀ k, a.found rows k = a.found rows₁ k ++ a.found rows₂ k := by
  intro whole first second
  have hwhole : whole.value = _ ∧ whole.state = _ :=
    (between c start stop n).perform_execute a unscheduled
  have hfirst : first.value = _ ∧ first.state = _ :=
    (between c start mid n₁).perform_execute a unscheduled
  have hsecond : second.value = _ ∧ second.state = _ :=
    (between c mid stop n₂).perform_execute first.state unscheduled
  rw [hfirst.2] at hsecond
  -- The two runs are runs in a row over windows that share no instant.
  have hdisjoint : [between c start mid n₁, between c mid stop n₂].Pairwise
      fun r q => r.window.Disjoint q.window := by
    refine List.pairwise_pair.2 (Window.disjoint_of_le ?_)
    exact Instant.lt_irrefl mid
  have hstage : (between c mid stop n₂, (between c start mid n₁).leave a) ∈
      stages a [between c start mid n₁, between c mid stop n₂] := by
    simp [stages]
  have hcut := a.within_append (Instant.le_of_lt h₁) (Instant.le_of_lt h₂)
  have hsums := (between c start stop n).sums_reportOn a unscheduled
  have hsums₁ := (between c start mid n₁).sums_reportOn a unscheduled
  have hsums₂ := sums_of_mem_stages hdisjoint hstage unscheduled
  rw [records_between] at hsums hsums₁ hsums₂
  rw [hcut] at hsums
  refine ⟨_, _, _, ((between c start stop n).batch a).entries,
    ((between c start mid n₁).batch a).entries,
    ((between c mid stop n₂).batch ((between c start mid n₁).leave a)).entries,
    hwhole.1, hfirst.1, hsecond.1, hsums.splits hsums₁ hsums₂, ?_, ?_, ?_, ?_⟩
  · rw [hwhole.2]
    exact (filed_leave _ a).entries
  · rw [hfirst.2]
    exact (filed_leave _ a).entries
  · rw [hsecond.2, hfirst.2]
    exact (filed_leave _ _).entries
  · intro k
    rw [found_batch (.refl a), found_batch (.refl a), found_of_mem_stages hdisjoint hstage,
      records_between, records_between, records_between, hcut, a.counted_append,
      List.filter_append, List.map_append]

end Run

/-- The leap second at the end of 2016. -/
def Calendar.Instant.leapSecond : Instant :=
  ⟨1483228799, 1000000000, by decide, by decide, by decide, by decide⟩

/-- A day after it, which is no leap second. -/
def Calendar.Instant.dayAfterLeapSecond : Instant :=
  ⟨1483315199, 0, by decide, by decide, epoch.nano_lt, by decide⟩

/-- A phone with a ping from the first instant of 1970 and one from a leap second, whose task is
gone. -/
def Archive.ofTwoPings : Archive :=
  Archive.ofOnePing.insertMeasurement
    ⟨⟨"late"⟩, .ping, .leapSecond, true, .empty, .empty, ⟨"phone"⟩, some ⟨"gone"⟩⟩

theorem Run.execute_splits_ofTwoPings :
    let n : String × Instant := ("run", .epoch)
    let whole := ((between {} .epoch .dayAfterLeapSecond n).execute Archive.store []).perform
      .ofTwoPings
    let first := ((between {} .epoch .leapSecond n).execute Archive.store []).perform .ofTwoPings
    let second := ((between {} .leapSecond .dayAfterLeapSecond n).execute Archive.store []).perform
      first.state
    ∃ rep rep₁ rep₂ rows rows₁ rows₂,
      whole.value = .ok rep ∧ first.value = .ok rep₁ ∧ second.value = .ok rep₂ ∧
        rep.Splits rep₁ rep₂ ∧
        whole.state.entries = Archive.ofTwoPings.entries ++ rows ∧
        first.state.entries = Archive.ofTwoPings.entries ++ rows₁ ∧
        second.state.entries = first.state.entries ++ rows₂ ∧
        ∀ k, Archive.ofTwoPings.found rows k =
          Archive.ofTwoPings.found rows₁ k ++ Archive.ofTwoPings.found rows₂ k :=
  have hfirst : Instant.epoch < .leapSecond := by decide
  have hsecond : Instant.leapSecond < .dayAfterLeapSecond := by decide
  Run.execute_splits {} hfirst hsecond _ _ _ [] .ofTwoPings

end NetAudit
