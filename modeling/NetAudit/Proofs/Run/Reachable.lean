import NetAudit.Proofs.Run.Outcome

/-!
# Archives that can come about

An archive comes about from an empty one by deliveries, by writes that anyone asks its store for,
and by runs (`Archive.Reachable`). In any such archive an entry has its summary, `Archive.Rooted`:
the store takes no other, and a run writes a summary before the entries that point to it.
-/

namespace NetAudit

namespace Archive

/-- The summaries of all entries are stored. -/
def Rooted (a : Archive) : Prop := ∀ row ∈ a.entries, a.hasSummary row.value.summary

/-- The archive comes about by deliveries, writes and runs. -/
inductive Reachable : Archive → Prop where
  | empty (first : Nat) : Reachable (.empty first)
  | insertDevice {a : Archive} (h : Reachable a) (d : DeviceInfo) : Reachable (a.insertDevice d)
  | insertTask {a : Archive} (h : Reachable a) (t : TaskInfo) : Reachable (a.insertTask t)
  | insertMeasurement {a : Archive} (h : Reachable a) (m : Measurement) :
    Reachable (a.insertMeasurement m)
  | persistMeasurement {a : Archive} (h : Reachable a) (m : Measurement) :
    Reachable (store.persistMeasurement m a).2
  | persistSummary {a : Archive} (h : Reachable a) (s : Summary) :
    Reachable (store.persistSummary s a).2
  | persistEntry {a : Archive} (h : Reachable a) (e : Entry) : Reachable (store.persistEntry e a).2
  | run {a : Archive} (h : Reachable a) (r : Run) (unscheduled : List Window) :
    Reachable ((r.execute store unscheduled).perform a).state

/-! ## Writes keep archives rooted

The writes of a filing are its summary and then the entries under it. So when an entry is written,
its summary is there already. -/

variable {a : Archive}

theorem Rooted.of_frame {b : Archive} (h : a.Rooted) (hsummaries : b.summaries = a.summaries)
    (hentries : b.entries = a.entries) : b.Rooted := by
  intro row hrow
  rw [hentries] at hrow
  rw [hasSummary_iff, hsummaries, ← hasSummary_iff]
  exact h row hrow

theorem Rooted.write_summary (h : a.Rooted) (s : Summary) : (a.write (.summary s)).Rooted :=
  fun row hrow => hasSummary_write (h row hrow) _

theorem Rooted.write_entry (h : a.Rooted) {e : Entry} (he : a.hasSummary e.summary) :
    (a.write (.entry e)).Rooted := by
  intro row hrow
  apply hasSummary_write
  rcases List.mem_append.1 hrow with hrow | hrow
  · exact h row hrow
  · rw [List.mem_singleton] at hrow
    rw [hrow]
    exact he

theorem Rooted.writeAll_entries (h : a.Rooted) {id : SummaryId} (hid : a.hasSummary id)
    (ps : List PendingEntry) : (a.writeAll (ps.map fun p => .entry (p.attach id))).Rooted := by
  induction ps generalizing a with
  | nil => exact h
  | cons p ps ih =>
      rw [List.map_cons, writeAll_cons]
      exact ih (h.write_entry (e := p.attach id) hid) (hasSummary_write hid _)

theorem Rooted.writeAll_filing (h : a.Rooted) (k : Kind) (x : Account) :
    (a.writeAll (x.filing a.first a.summaries.length k).writes).Rooted := by
  unfold Account.filing Filing.writes
  by_cases hzero : x.summary.recordCount = 0
  · simp only [hzero, if_true]
    exact h
  · simp only [hzero, if_false]
    exact (h.write_summary x.summary).writeAll_entries (hasSummary_write_summary x.summary) _

theorem Rooted.writeAll_filings (h : a.Rooted) (as : List (Kind × Account)) :
    (a.writeAll ((filingsFrom a.first a.summaries.length as).flatMap Filing.writes)).Rooted := by
  induction as generalizing a with
  | nil => exact h
  | cons e as ih =>
      -- The filing is rooted on its own, and the names of the others go on after it.
      have hrest := ih (h.writeAll_filing e.1 e.2)
      rw [Filing.length_summaries_writeAll, (a.writeAll_frame _).1] at hrest
      rw [filingsFrom, List.flatMap_cons, writeAll_append]
      exact hrest

/-- **A run keeps an archive rooted.** -/
theorem Rooted.execute (h : a.Rooted) (r : Run) (unscheduled : List Window) :
    ((r.execute store unscheduled).perform a).state.Rooted := by
  obtain ⟨hfirst, -, -, hsummaries, hentries⟩ := a.afterVisits_frame (r.visits a)
  have hrooted := (h.of_frame hsummaries hentries).writeAll_filings (r.tally a).accounts.toList
  rw [hfirst, hsummaries] at hrooted
  have hstate := congrArg Prod.snd (r.execute_archive unscheduled a)
  rw [show ((r.execute store unscheduled).perform a).state = _ from hstate]
  exact hrooted

/-- **In an archive that can come about, every entry has its summary.** -/
theorem Reachable.rooted (h : a.Reachable) : a.Rooted := by
  induction h with
  | empty first => exact fun row hrow => absurd hrow List.not_mem_nil
  | insertDevice _ d ih => exact ih.of_frame rfl rfl
  | insertTask _ t ih => exact ih.of_frame rfl rfl
  | insertMeasurement _ m ih => exact ih.of_frame rfl rfl
  | @persistMeasurement a _ m ih =>
      show (replaceMeasurement m a).2.Rooted
      unfold replaceMeasurement
      split
      · exact ih.of_frame rfl rfl
      · exact ih
  | persistSummary _ s ih => exact ih.write_summary s
  | @persistEntry a _ e ih =>
      show (addEntry e a).2.Rooted
      unfold addEntry
      split
      · next he => exact ih.write_entry he
      · exact ih
  | run _ r unscheduled ih => exact ih.execute r unscheduled

end Archive

end NetAudit
