import NetAudit.Proofs.Run.Outcome

/-!
# Reports tell of all records

The report of a run on an archive is what a reader would count by hand: `Report.Tallies` says so of
the list of the run's records, with no word of pages, accounts or the order in which anything is
done. No record is lost, and none is counted twice (`Report.Tallies.total`).
-/

namespace NetAudit

/-- The records of a kind whose devices are stored. -/
def Archive.counted (a : Archive) (ms : List Measurement) (k : Kind) : List Measurement :=
  ms.filter fun m => m.kind = k && a.devices.contains m.device

/-- What a report says of a kind is what `ms` are. -/
structure KindReport.Tells (x : KindReport) (k : Kind) (ms : List Measurement) : Prop where
  kind : x.kind = k
  recordCount : x.recordCount = ms.length
  errorCount : x.errorCount = ms.countP Measurement.isInvalid
  /-- A tag has the number of times that it was raised; one that was not raised is left out. -/
  errorCounts : ∀ tag, x.errorCounts.find? tag =
    let tags := ms.flatMap Measurement.errors
    if tag ∈ tags then some (tags.count tag) else none
  /-- The kind is marked as unknown just if its measurements are refused a validator. -/
  isUnknown : ∀ m : Measurement, m.kind = k → x.isUnknown = !(Validator.of? m).isOk
  unknown : x.isUnknown = true → x.errorCount = 0

/-- What a report says is what the records `ms` are, with the devices of an archive. -/
structure Report.Tallies (rep : Report) (a : Archive) (ms : List Measurement) : Prop where
  skipped : rep.skipped = ms.countP fun m => !a.devices.contains m.device
  /-- The kinds with a validator are reported, and those of records with a device; no others. -/
  kinds : ∀ tag, rep.kinds.contains tag = true ↔
    (∃ k ∈ Kind.validated, k.tag = tag) ∨
      ∃ m ∈ ms, a.devices.contains m.device = true ∧ m.kind.tag = tag
  kind : ∀ k x, rep.kinds.find? k.tag = some x → x.Tells k (a.counted ms k)
  total : Number.total (rep.kinds.values.map KindReport.recordCount) + rep.skipped = ms.length
  /-- The sum of the records, in 64 bits, counts all that were not skipped, if there are fewer
  records than fit. -/
  recordTotal : ms.length < Number.countBound → rep.recordTotal + rep.skipped = ms.length

section Tallies

variable {r : Run} {a : Archive} {unscheduled : List Window}

/-- The tally of a run tells what became of the records. -/
theorem Run.tells_tally (r : Run) (a : Archive) : (r.tally a).Tells r.window (r.visits a) :=
  Tally.tells_ofVisits r (r.visits a)

theorem Run.scoredOf_visits (r : Run) (a : Archive) (k : Kind) :
    scoredOf (r.visits a) k = a.counted (r.records a) k := by
  unfold scoredOf Archive.counted visits
  rw [scored_visits, List.filter_filter]
  rfl

theorem Archive.kind_of_mem_counted {ms : List Measurement} {k : Kind} {m : Measurement}
    (h : m ∈ a.counted ms k) : m ∈ ms ∧ m.kind = k ∧ a.devices.contains m.device = true := by
  obtain ⟨hm, hboth⟩ := List.mem_filter.1 h
  obtain ⟨hkind, hdevice⟩ := Bool.and_eq_true_iff.1 hboth
  exact ⟨hm, of_decide_eq_true hkind, hdevice⟩

/-- The account of a filing tells of the records of its kind. -/
theorem Run.tells_of_mem_filings {f : Filing} (h : f ∈ r.filings a) :
    f.account.Tells r.window f.kind (a.counted (r.records a) f.kind) := by
  have haccount := (r.tells_tally a).account _ _ (mem_accounts_of_mem_filings h)
  rwa [r.scoredOf_visits] at haccount

theorem Account.Tells.kindReport {x : Account} {w : Window} {k : Kind} {ms : List Measurement}
    (h : x.Tells w k ms) (hms : ∀ m ∈ ms, m.kind = k) (id : Option SummaryId) :
    (Run.kindReport x id).Tells k ms where
  kind := h.kind
  recordCount := h.recordCount
  errorCount := h.errorCount
  errorCounts tag := by
    show x.summary.errorCounts.find? tag = _
    rw [h.errorCounts, Counts.find?_ofNames]
  isUnknown m hm := by
    show x.summary.isUnknown = _
    rw [h.mark, Validator.of?_isOk, hm]
  -- No measurement of a kind without a validator is invalid.
  unknown hunknown := by
    have hk : k.isValidated = false := by
      have hmark : x.summary.isUnknown = true := hunknown
      rwa [h.mark, Bool.not_eq_true'] at hmark
    show x.summary.errorCount = 0
    rw [h.errorCount, List.countP_eq_zero]
    intro m hm
    rw [← hms m hm] at hk
    simp [Measurement.isInvalid, Measurement.errors_eq_nil hk]

/-- The report of a run tells of all its records. -/
theorem Run.tallies_report (r : Run) (unscheduled : List Window) (a : Archive) :
    (r.report unscheduled (r.tally a) (r.filings a)).Tallies a (r.records a) := by
  have htells := r.tells_tally a
  have hskipped : (r.tally a).skipped =
      (r.records a).countP fun m => !a.devices.contains m.device := by
    rw [htells.skipped, Run.visits, countP_skipped_visits]
    congr 1
    funext m
    exact (Option.not_isSome (a.devices.find? m.device)).symm
  have htotal : Number.total ((r.report unscheduled (r.tally a) (r.filings a)).kinds.values.map
      KindReport.recordCount) + (r.tally a).skipped = (r.records a).length := by
    have hlen := congrArg List.length (({} : Outages).map_fst_visits a 0 (r.records a))
    rw [List.length_map] at hlen
    rw [Run.filings, total_report _ (fun x => x.summary.recordCount) fun _ _ => rfl,
      htells.total_recordCounts]
    exact hlen
  refine ⟨hskipped, ?_, ?_, htotal, ?_⟩
  · -- A kind is reported if it has an account: from the beginning, or with its first record.
    intro tag
    have hcontains : (r.report unscheduled (r.tally a) (r.filings a)).kinds.contains tag =
        (r.tally a).accounts.contains (.ofTag tag) := by
      have hkind := contains_report (r := r) (t := r.tally a) (a := a) unscheduled (.ofTag tag)
      rwa [Kind.tag_ofTag] at hkind
    rw [hcontains, htells.contains, Bool.or_eq_true, r.scoredOf_visits]
    apply or_congr
    · unfold Kind.isValidated
      rw [List.contains_iff_mem]
      constructor
      · intro hk
        exact ⟨_, hk, Kind.tag_ofTag tag⟩
      · rintro ⟨k, hk, rfl⟩
        rwa [Kind.ofTag_tag]
    · rw [Bool.not_eq_true', List.isEmpty_eq_false_iff_exists_mem]
      constructor
      · rintro ⟨m, hm⟩
        obtain ⟨hm, hkind, hdevice⟩ := Archive.kind_of_mem_counted hm
        exact ⟨m, hm, hdevice, by rw [hkind, Kind.tag_ofTag]⟩
      · rintro ⟨m, hm, hdevice, rfl⟩
        exact ⟨m, List.mem_filter.2 ⟨hm, by simp [hdevice]⟩⟩
  · intro k x hx
    obtain ⟨f, hf, rfl, rfl⟩ := (find?_report_eq_some_iff k x).1 hx
    exact (tells_of_mem_filings hf).kindReport
      (fun m hm => (Archive.kind_of_mem_counted hm).2.1) f.summary
  · -- No sum of fewer records than fit into 64 bits is cut off.
    intro hbound
    show Number.total _ % Number.countBound + (r.tally a).skipped = _
    rw [Nat.mod_eq_of_lt (by omega)]
    exact htotal

end Tallies

/-- **A run on an archive succeeds, and its report tells of all of its records.** -/
theorem Run.execute_tallies (r : Run) (unscheduled : List Window) (a : Archive) :
    ∃ rep, ((r.execute Archive.store unscheduled).perform a).value = .ok rep ∧
      rep.Tallies a (r.records a) :=
  ⟨_, congrArg Prod.fst (r.execute_archive unscheduled a), r.tallies_report unscheduled a⟩

end NetAudit
