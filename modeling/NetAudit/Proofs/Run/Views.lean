import NetAudit.Proofs.Run.Aftermath

/-!
# What a run says of a kind

Of each kind a report has counts and details, and the run leaves entries. All of this is said of the
records in a row: two lists of records one after the other have the counts of both and the details
and entries of the first before those of the second. `Report.Sums` and `Run.found_batch` give it in
a form in which this is plain to see, with nothing where a kind is not reported.
-/

namespace NetAudit

/-! ## Details

The details of a kind are put behind each other record by record, so those of two lists of records
are those of the first and then those of the second. -/

/-- The detail that is shown of a record which is scored for a device. -/
def Config.detail? (c : Config) (device : DeviceInfo) (m : Measurement) : Option String :=
  match Validator.of? m with
  | .ok v => if c.shows v.score then some (detailText device m v v.score) else none
  | .error _ => none

/-- What is shown of a record among the details of a kind. -/
def Config.details (c : Config) (k : Kind) (m : Measurement) (device? : Option DeviceInfo) :
    List String :=
  match device? with
  | some device => if m.kind = k then (c.detail? device m).toList else []
  | none => []

theorem Account.details_score (a : Account) (c : Config) (w : Window) (device : DeviceInfo)
    (m : Measurement) :
    (a.score c w device m).details = a.details ++ (c.detail? device m).toList := by
  unfold score Config.detail?
  cases Validator.of? m with
  | error e => exact (List.append_nil _).symm
  | ok v =>
      unfold enter
      cases hshown : c.shows v.score <;> cases hvalid : v.score.isValid <;>
        simp [hshown, hvalid, count]

namespace Tally

def detailsOf (t : Tally) (k : Kind) : List String :=
  ((t.accounts.find? k).map Account.details).getD []

theorem detailsOf_initial (k : Kind) : initial.detailsOf k = [] := by
  unfold detailsOf
  rw [find?_initial]
  cases k.isValidated <;> rfl

theorem detailsOf_score (t : Tally) (r : Run) (device : DeviceInfo) (m : Measurement) (k : Kind) :
    (t.score r.config r.window device m).detailsOf k =
      t.detailsOf k ++ r.config.details k m (some device) := by
  unfold detailsOf score
  show _ = _ ++ if m.kind = k then (r.config.detail? device m).toList else []
  rw [OrderedMap.find?_update]
  by_cases hk : k = m.kind
  · rw [if_pos hk, if_pos hk.symm, hk]
    cases t.accounts.find? m.kind <;> exact Account.details_score _ _ _ _ _
  · rw [if_neg hk, if_neg (Ne.symm hk), List.append_nil]

theorem detailsOf_visit (t : Tally) (r : Run) (m : Measurement) (v : Visit) (k : Kind) :
    (t.visit r m v).detailsOf k = t.detailsOf k ++ r.config.details k m v.device? := by
  rcases v with _ | ⟨device, _ | _⟩
  · exact (List.append_nil _).symm
  · exact t.detailsOf_score r device m k
  · exact t.repair.detailsOf_score r device m k

/-- **The details of a kind are those of its records**, in their order. -/
theorem detailsOf_ofVisits (r : Run) (vs : List (Measurement × Visit)) (k : Kind) :
    (ofVisits r vs).detailsOf k = vs.flatMap fun p => r.config.details k p.1 p.2.device? := by
  have hfold : ∀ t : Tally, (vs.foldl (fun t p => t.visit r p.1 p.2) t).detailsOf k =
      t.detailsOf k ++ vs.flatMap fun p => r.config.details k p.1 p.2.device? := by
    induction vs with
    | nil => exact fun t => (List.append_nil _).symm
    | cons p vs ih =>
        intro t
        rw [List.foldl_cons, ih, t.detailsOf_visit, List.flatMap_cons, List.append_assoc]
  have hall := hfold .initial
  rwa [detailsOf_initial, List.nil_append] at hall

end Tally

/-! ## What is said of a kind

A report says nothing of a kind that it does not have. With zero and no details in place of that,
what it says is a sum over records. -/

theorem Archive.counted_congr {a b : Archive} (hdevices : b.devices = a.devices) :
    b.counted = a.counted := by
  funext ms k
  unfold counted
  rw [hdevices]

theorem Archive.counted_append (a : Archive) (ms ns : List Measurement) (k : Kind) :
    a.counted (ms ++ ns) k = a.counted ms k ++ a.counted ns k := List.filter_append ms ns

namespace Report

/-- The number of records of a kind that were counted. -/
def recordsOf (rep : Report) (k : Kind) : Nat := ((rep.find? k).map KindReport.recordCount).getD 0

def errorsOf (rep : Report) (k : Kind) : Nat := ((rep.find? k).map KindReport.errorCount).getD 0

def categoryOf (rep : Report) (k : Kind) (tag : String) : Nat :=
  ((rep.find? k).bind fun x => x.errorCounts.find? tag).getD 0

def detailsOf (rep : Report) (k : Kind) : List String :=
  ((rep.find? k).map KindReport.details).getD []

/-- All that a report says is what the records `ms` are, each for itself. -/
structure Sums (rep : Report) (c : Config) (a : Archive) (ms : List Measurement) : Prop where
  records : ∀ k, rep.recordsOf k = (a.counted ms k).length
  errors : ∀ k, rep.errorsOf k = (a.counted ms k).countP Measurement.isInvalid
  categories : ∀ k tag,
    rep.categoryOf k tag = ((a.counted ms k).flatMap Measurement.errors).count tag
  details : ∀ k, rep.detailsOf k = ms.flatMap fun m => c.details k m (a.devices.find? m.device)
  skipped : rep.skipped = ms.countP fun m => !a.devices.contains m.device
  repaired : rep.repaired = ms.countP a.mends

variable {rep : Report} {a : Archive} {ms : List Measurement}

theorem Tallies.counted_eq_nil (h : rep.Tallies a ms) {k : Kind} (hk : rep.find? k = none) :
    a.counted ms k = [] := by
  apply List.eq_nil_iff_forall_not_mem.2
  intro m hm
  obtain ⟨hm, hkind, hdevice⟩ := Archive.kind_of_mem_counted hm
  have hcontains := (h.kinds k.tag).2 (.inr ⟨m, hm, hdevice, by rw [hkind]⟩)
  unfold OrderedMap.contains at hcontains
  rw [show rep.kinds.find? k.tag = none from hk] at hcontains
  cases hcontains

/-- A number that a report gives of a kind, or zero without the kind, is what it is of the records
that were counted. -/
theorem Tallies.getD_find? (h : rep.Tallies a ms) (k : Kind) {f : KindReport → Nat}
    {g : List Measurement → Nat} (hnil : g [] = 0)
    (hf : ∀ x, rep.find? k = some x → f x = g (a.counted ms k)) :
    ((rep.find? k).map f).getD 0 = g (a.counted ms k) := by
  cases hfind : rep.find? k with
  | none => rw [h.counted_eq_nil hfind, hnil, Option.map_none, Option.getD_none]
  | some x => exact hf x hfind

theorem Sums.of_frame {b : Archive} {c : Config} (h : rep.Sums c b ms)
    (hdevices : b.devices = a.devices) (htasks : b.tasks = a.tasks) : rep.Sums c a ms := by
  obtain ⟨hrecords, herrors, hcategories, hdetails, hskipped, hrepaired⟩ := h
  rw [Archive.counted_congr hdevices] at hrecords herrors hcategories
  rw [hdevices] at hdetails hskipped
  rw [Archive.mends_congr hdevices htasks] at hrepaired
  exact ⟨hrecords, herrors, hcategories, hdetails, hskipped, hrepaired⟩

end Report

namespace Run

variable (r : Run) (a : Archive)

theorem detailsOf_reportOn (unscheduled : List Window) (k : Kind) :
    (r.reportOn a unscheduled).detailsOf k = (r.tally a).detailsOf k := by
  have hcontains := contains_report (r := r) (t := r.tally a) (a := a) unscheduled k
  unfold OrderedMap.contains at hcontains
  unfold Report.detailsOf Tally.detailsOf
  cases hfind : (r.tally a).accounts.find? k with
  | none =>
      rw [hfind, Option.isSome_none, ← Bool.not_eq_true, Option.not_isSome_iff_eq_none] at hcontains
      rw [show (r.reportOn a unscheduled).find? k = none from hcontains]
      rfl
  | some x =>
      obtain ⟨f, hf, hk, hx⟩ := exists_mem_filings (a := a) hfind
      have hreport : (r.reportOn a unscheduled).find? k = _ :=
        (find?_report_eq_some_iff k _).2 ⟨f, hf, hk, rfl⟩
      rw [hreport, ← hx]
      rfl

/-- **A run reports what its records are**, each for itself. -/
theorem sums_reportOn (unscheduled : List Window) :
    (r.reportOn a unscheduled).Sums r.config a (r.records a) := by
  have htallies : (r.reportOn a unscheduled).Tallies a (r.records a) :=
    r.tallies_report unscheduled a
  constructor
  case records =>
    exact fun k => htallies.getD_find? k List.length_nil fun x hx =>
      (htallies.kind k x hx).recordCount
  case errors =>
    exact fun k => htallies.getD_find? k List.countP_nil fun x hx =>
      (htallies.kind k x hx).errorCount
  case categories =>
    intro k tag
    unfold Report.categoryOf
    -- A kind that the report does not show has no records, and a category that it does not show has
    -- no errors: zero stands for both.
    cases hfind : (r.reportOn a unscheduled).find? k with
    | none => rw [htallies.counted_eq_nil hfind]; rfl
    | some x =>
        rw [Option.bind_some, (htallies.kind k x hfind).errorCounts]
        by_cases htag : tag ∈ (a.counted (r.records a) k).flatMap Measurement.errors
        · rw [if_pos htag]
          rfl
        · rw [if_neg htag, List.count_eq_zero_of_not_mem htag]
          rfl
  case details =>
    intro k
    have hdevices := congrArg (List.flatMap fun p : Measurement × Option DeviceInfo =>
      r.config.details k p.1 p.2) (({} : Outages).map_device?_visits a 0 (r.records a))
    rw [List.flatMap_map, List.flatMap_map] at hdevices
    rw [r.detailsOf_reportOn]
    exact (Tally.detailsOf_ofVisits r (r.visits a) k).trans hdevices
  case skipped => exact htallies.skipped
  case repaired => exact r.repaired_reportOn a unscheduled

end Run

/-! ## The entries of a kind

Entries do not say of which kind their records are. That is looked up in an archive, and every
archive that differs in tasks only gives the same kinds. -/

/-- What rows say of measurements of a kind. -/
def Archive.found (a : Archive) (rows : List (Stored EntryId Entry)) (k : Kind) :
    List (MeasurementId × List String) :=
  (rows.map fun row => (row.value.measurement, row.value.errors)).filter fun e =>
    (a.measurements.find? e.1).any fun m => m.kind = k

theorem flatMap_ite_eq {κ β : Type} [DecidableEq κ] {ks : List κ} (h : ks.Nodup) (g : κ → List β)
    (k : κ) : (ks.flatMap fun j => if j = k then g j else []) = if k ∈ ks then g k else [] := by
  induction ks with
  | nil => rfl
  | cons j ks ih =>
      obtain ⟨hj, hks⟩ := List.nodup_cons.1 h
      rw [List.flatMap_cons, ih hks]
      by_cases heq : j = k
      · subst heq
        simp [hj]
      · simp [heq, Ne.symm heq]

/-- A record stands under its name with its kind, whatever became of its task. -/
theorem Archive.SameButTasks.any_kind {a b : Archive} (h : a.SameButTasks b) {m : Measurement}
    (hm : b.measurements.find? m.id = some m) (k : Kind) :
    ((a.measurements.find? m.id).any fun n => n.kind = k) = decide (m.kind = k) := by
  have hfind := congrArg (fun x => x.find? m.id) h.measurements
  rw [OrderedMap.find?_mapValues, OrderedMap.find?_mapValues, hm, Option.map_some] at hfind
  obtain ⟨n, hn, hsame⟩ := Option.map_eq_some_iff.1 hfind.symm
  rw [hn, Option.any_some, Measurement.SameButTask.kind_eq hsame]

/-- **The entries of a kind are those of its invalid records**, in their order. -/
theorem Run.found_batch {a b : Archive} (h : a.SameButTasks b) (r : Run) (k : Kind) :
    a.found (r.batch b).entries k =
      ((b.counted (r.records b) k).filter Measurement.isInvalid).map fun m => (m.id, m.errors) := by
  let found (j : Kind) : List (MeasurementId × List String) :=
    ((b.counted (r.records b) j).filter Measurement.isInvalid).map fun m => (m.id, m.errors)
  have hkind : ∀ j, (found j).filter (fun e =>
      (a.measurements.find? e.1).any fun m => m.kind = k) = if j = k then found j else [] := by
    intro j
    have hentry : ∀ e ∈ found j,
        ((a.measurements.find? e.1).any fun m => m.kind = k) = decide (j = k) := by
      intro e he
      obtain ⟨m, hm, rfl⟩ := List.mem_map.1 he
      obtain ⟨hrecord, rfl, -⟩ := Archive.kind_of_mem_counted (List.mem_filter.1 hm).1
      exact h.any_kind (find?_of_mem_records hrecord) k
    rw [List.filter_congr hentry]
    by_cases hj : j = k <;> simp [hj]
  have hrows : (r.batch b).entries.map (fun row => (row.value.measurement, row.value.errors)) =
      (r.tally b).accounts.keys.flatMap found := by
    have hvalues : (r.batch b).entries.map (·.value) = (r.filings b).flatMap Filing.entries :=
      map_value_storedFrom _ _ _
    have heach : ∀ f ∈ r.filings b, (f.entries.map fun e => (e.measurement, e.errors)) =
        found f.kind := fun f hf => errors_entries hf
    have hmap := congrArg (List.map fun e : Entry => (e.measurement, e.errors)) hvalues
    rw [List.map_map, List.map_flatMap, List.flatMap_def, List.map_congr_left heach,
      ← List.flatMap_def] at hmap
    rw [← r.map_kind_filings, List.flatMap_map]
    exact hmap
  unfold Archive.found
  rw [hrows, List.filter_flatMap, List.flatMap_def, List.map_congr_left fun j _ => hkind j,
    ← List.flatMap_def, flatMap_ite_eq (r.tally b).accounts.nodup_keys]
  -- A kind without an account has no records.
  split
  · rfl
  · next hk =>
    rw [OrderedMap.mem_keys_iff, (r.tells_tally b).contains, Bool.or_eq_true, not_or,
      r.scoredOf_visits] at hk
    have hnone : b.counted (r.records b) k = [] := by simpa using hk.2
    rw [hnone]
    rfl

end NetAudit
