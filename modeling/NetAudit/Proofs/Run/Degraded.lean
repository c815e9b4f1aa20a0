import NetAudit.Proofs.Run.Results

/-!
# Runs with failing look-ups and repairs

A record whose device cannot be looked up is passed over, as if the device were gone. A record whose
task cannot be looked up or cleared is scored like any other, and keeps its task. So a run with such
failures is the run without them on the archive without these devices, but for what it repairs:
`Run.execute_degraded`.
-/

namespace NetAudit

/-- The archive without some devices. -/
def Archive.withoutDevices (a : Archive) (gone : DeviceId → Bool) : Archive :=
  { a with devices := a.devices.filterKeys fun d => !gone d }

namespace Outages

variable (o : Outages) (a : Archive)

/-- A device that cannot be looked up is like one that is gone. -/
theorem deviceOf_withoutDevices (m : Measurement) :
    ({} : Outages).deviceOf (a.withoutDevices fun d => (o.device d).isSome) m = o.deviceOf a m := by
  show (a.devices.filterKeys _).find? m.device = _
  rw [OrderedMap.find?_filterKeys]
  unfold deviceOf
  cases hfault : o.device m.device <;> simp [hfault]

theorem map_device?_visits (lookups : Nat) (ms : List Measurement) :
    (o.visits a lookups ms).map (fun p => (p.1, p.2.device?)) =
      ms.map fun m => (m, o.deviceOf a m) := by
  induction ms generalizing lookups with
  | nil => rfl
  | cons m ms ih =>
      rw [visits, List.map_cons, List.map_cons, ih, o.device?_visit]

theorem countP_repaired_visits (lookups : Nat) (ms : List Measurement) :
    (o.visits a lookups ms).countP (fun p => p.2.isRepaired) =
      ms.zipIdx.countP fun p =>
        o.clears a (lookups + (ms.take p.2).countP (o.asksTask a)) p.1 := by
  rw [visits_eq_map, List.countP_map]
  congr 1
  funext p
  exact o.isRepaired_visit a _ p.1

end Outages

/-- What a run makes of failing look-ups and repairs: its report `rep`, and the states before and
after it. -/
structure Run.Endures (r : Run) (o : Outages) (before after : Outages.State) (rep : Report) :
    Prop where
  /-- A record whose device cannot be looked up is passed over, and counted nowhere else. -/
  tallies : rep.Tallies (before.archive.withoutDevices fun d => (o.device d).isSome)
    (r.records before.archive)
  skipped : rep.skipped = (r.records before.archive).countP fun m =>
    (o.device m.device).isSome || !before.archive.devices.contains m.device
  /-- Any other record with errors gets its one entry. -/
  entries : ∃ rows, after.archive.entries = before.archive.entries ++ rows ∧
    (rows.map fun row => (row.value.measurement, row.value.errors)).Perm
      (((r.records before.archive).filter fun m =>
        m.isInvalid && (o.deviceOf before.archive m).isSome).map fun m => (m.id, m.errors))
  /-- A record loses its task just if that is gone and neither look-up nor write fails. -/
  tasks : ∀ m j, (r.records before.archive)[j]? = some m →
    after.archive.measurements.find? m.id =
      some (if o.clears before.archive (before.lookups +
        ((r.records before.archive).take j).countP (o.asksTask before.archive)) m
        then m.withoutTask else m)
  repaired : rep.repaired = (r.records before.archive).zipIdx.countP fun p =>
    o.clears before.archive (before.lookups +
      ((r.records before.archive).take p.2).countP (o.asksTask before.archive)) p.1
  others : ∀ id, id ∉ (r.records before.archive).map (·.id) →
    after.archive.measurements.find? id = before.archive.measurements.find? id

namespace Run

variable (r : Run) (a : Archive)

/-- Failing look-ups and repairs are seen in the number of repairs only. -/
theorem report_degraded (unscheduled : List Window) (o : Outages) (lookups : Nat) :
    let b := a.withoutDevices fun d => (o.device d).isSome
    let t := Tally.ofVisits r (o.visits a lookups (r.records a))
    t.filings a = r.filings b ∧
      r.report unscheduled t (t.filings a) =
        { r.report unscheduled (r.tally b) (r.filings b) with repaired := t.repaired } := by
  intro b t
  have hdevices : (o.visits a lookups (r.records a)).map (fun p => (p.1, p.2.device?)) =
      (r.visits b).map fun p => (p.1, p.2.device?) := by
    unfold Run.visits
    rw [Outages.map_device?_visits, Outages.map_device?_visits]
    apply List.map_congr_left
    intro m _
    rw [o.deviceOf_withoutDevices]
  -- Both runs score the same records for the same devices; only their repairs may differ.
  obtain ⟨haccounts, hskipped⟩ := Tally.ofVisits_congr r hdevices
  have hfilings : t.filings a = r.filings b := by
    unfold Run.filings Tally.filings
    rw [haccounts]
    rfl
  refine ⟨hfilings, ?_⟩
  rw [hfilings]
  unfold report entryCount
  rw [haccounts, hskipped]
  rfl

section Records

variable (o : Outages) (lookups : Nat)

theorem map_id_visits :
    (o.visits a lookups (r.records a)).map (·.1.id) = (r.records a).map (·.id) := by
  conv => rhs; rw [← o.map_fst_visits a lookups (r.records a), List.map_map]
  rfl

/-- A measurement after the visits of a run. -/
theorem find?_afterVisits_records {m : Measurement} {j : Nat} (h : (r.records a)[j]? = some m) :
    (a.afterVisits (o.visits a lookups (r.records a))).measurements.find? m.id =
      some (if o.clears a (lookups + ((r.records a).take j).countP (o.asksTask a)) m
        then m.withoutTask else m) := by
  have hnodup : ((o.visits a lookups (r.records a)).map (·.1.id)).Nodup := by
    rw [map_id_visits, r.records_eq_listed]
    exact a.nodup_ids_listed r.query
  have hstored : ∀ p ∈ o.visits a lookups (r.records a),
      a.measurements.find? p.1.id = some p.1 := by
    intro p hp
    have hmem := List.mem_map_of_mem (f := (·.1)) hp
    rw [o.map_fst_visits] at hmem
    exact find?_of_mem_records hmem
  have hvisit : (m, o.visit a (lookups + ((r.records a).take j).countP (o.asksTask a)) m) ∈
      o.visits a lookups (r.records a) := by
    rw [o.visits_eq_map]
    exact List.mem_map.2 ⟨(m, j), List.mem_zipIdx_iff_getElem?.2 h, rfl⟩
  have hfind := Archive.find?_afterVisits hnodup hstored hvisit
  rwa [o.isRepaired_visit] at hfind

/-- The report and the entries of the run without the failing devices, and the measurements after
the visits of the run, are what the run makes of its failures. -/
theorem endures_of_report (unscheduled : List Window) {after : Outages.State}
    (hmeasurements : after.archive.measurements =
      (a.afterVisits (o.visits a lookups (r.records a))).measurements)
    (hentries : after.archive.entries =
      (a.writeAll (r.writes (a.withoutDevices fun d => (o.device d).isSome))).entries) :
    let b := a.withoutDevices fun d => (o.device d).isSome
    let t := Tally.ofVisits r (o.visits a lookups (r.records a))
    r.Endures o ⟨a, lookups⟩ after
      { r.report unscheduled (r.tally b) (r.filings b) with repaired := t.repaired } := by
  intro b t
  have htallies := r.tallies_report unscheduled b
  have hdevice : ∀ m : Measurement, b.devices.contains m.device = (o.deviceOf a m).isSome :=
    fun m => congrArg Option.isSome (o.deviceOf_withoutDevices a m)
  constructor
  case tallies =>
    exact ⟨htallies.skipped, htallies.kinds, htallies.kind, htallies.total, htallies.recordTotal⟩
  case skipped =>
    refine htallies.skipped.trans ?_
    congr 1
    funext m
    rw [hdevice]
    unfold Outages.deviceOf OrderedMap.contains
    cases o.device m.device <;> rfl
  case entries =>
    obtain ⟨-, rows, hrows, hvalues⟩ := b.tables_writeAll_filings (r.tally b)
    -- Writing entries does not look at the devices that `b` is without.
    have hsame : (a.writeAll (r.writes b)).entries = (b.writeAll (r.writes b)).entries := by
      rw [Archive.entries_writeAll, Archive.entries_writeAll]
      rfl
    refine ⟨rows, hentries.trans (hsame.trans hrows), ?_⟩
    have hperm := r.entries_perm b
    rw [show (r.filings b).flatMap Filing.entries = _ from hvalues.symm, List.map_map] at hperm
    simp only [hdevice] at hperm
    exact hperm
  case tasks =>
    intro m j h
    rw [hmeasurements]
    exact r.find?_afterVisits_records a o lookups h
  case repaired =>
    exact (Tally.tells_ofVisits r _).repaired.trans (o.countP_repaired_visits a lookups _)
  case others =>
    intro id h
    rw [hmeasurements]
    apply Archive.find?_afterVisits_of_not_mem
    rwa [map_id_visits]

end Records

/-- **One bad record never aborts a run.** With failing look-ups of devices, look-ups of tasks and
writes of measurements, a run succeeds; it reports and writes what the run on the archive without
the failing devices does, but for what was repaired. -/
theorem execute_degraded (unscheduled : List Window) (lookups : Nat)
    (device : DeviceId → Option StoreError) (task : Nat → Option StoreError)
    (measurement : MeasurementId → Option StoreError) :
    let o : Outages := { device, task, measurement }
    let done := (r.execute o.store unscheduled).perform ⟨a, lookups⟩
    let sound := (r.execute Archive.store unscheduled).perform
      (a.withoutDevices fun d => (device d).isSome)
    ∃ rep report, done.value = .ok rep ∧ sound.value = .ok report ∧
      rep = { report with repaired := rep.repaired } ∧
      done.state.archive.summaries = sound.state.summaries ∧
      done.state.archive.entries = sound.state.entries ∧
      r.Endures o ⟨a, lookups⟩ done.state rep := by
  intro o done sound
  -- No page and no write of a result fails, so the run gets to its end; its visits are those of the
  -- run on the archive without the devices that cannot be looked up.
  have hpages : (r.cursors a).findSome? o.page = none :=
    List.findSome?_eq_none_iff.2 fun _ _ => rfl
  have hrun := r.execute_of_pages o unscheduled (s := ⟨a, lookups⟩) hpages
  simp only [Outages.put_eq_ok o fun _ _ => rfl] at hrun
  obtain ⟨hfilings, hreport⟩ := r.report_degraded a unscheduled o lookups
  rw [hreport, hfilings] at hrun
  have hsound := r.execute_archive unscheduled (a.withoutDevices fun d => (device d).isSome)
  have hstate : sound.state = _ := congrArg Prod.snd hsound
  have hdone : done.state.archive = _ := congrArg (fun x => x.2.archive) hrun
  obtain ⟨hsummaries, hentries⟩ := a.hasResults_afterVisits (o.visits a lookups (r.records a))
    (r.writes (a.withoutDevices fun d => (device d).isSome))
  refine ⟨_, _, congrArg Prod.fst hrun, congrArg Prod.fst hsound, rfl, ?_, ?_, ?_⟩
  · rw [hdone, hstate, (Archive.hasResults_afterVisits _ _ _).1]
    refine hsummaries.trans ?_
    rw [Archive.summaries_writeAll, Archive.summaries_writeAll]
    rfl
  · rw [hdone, hstate, (Archive.hasResults_afterVisits _ _ _).2]
    refine hentries.trans ?_
    rw [Archive.entries_writeAll, Archive.entries_writeAll]
    rfl
  · apply r.endures_of_report a o lookups unscheduled
    · rw [hdone]
      exact (Archive.writeAll_frame _ _).2.1
    · rw [hdone]
      exact hentries

end Run

end NetAudit
