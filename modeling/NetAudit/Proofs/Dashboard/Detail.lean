import NetAudit.Command.Perform
import NetAudit.Proofs.Documents
import NetAudit.Proofs.Run.Aftermath

/-!
# A measurement is scored alike wherever it is scored

A measurement is scored by a run, once more when it is shown in detail, and by a check of a file.
All three ask for the validator of the measurement, which does not depend on its task. So they agree
at any later time, for as long as nothing but the task of the measurement has changed
(`Archive.Retains`).
-/

namespace NetAudit

/-! ## Scores do not depend on tasks

The validator of a measurement is chosen by its kind and fed with its values. Its task is not looked
at. -/

theorem Measurement.SameButTask.validator_eq {m n : Measurement} (h : m.SameButTask n) :
    Validator.of? m = Validator.of? n := by
  unfold SameButTask at h
  show Validator.of? m.withoutTask = Validator.of? n.withoutTask
  rw [h]

theorem Measurement.SameButTask.errors_eq {m n : Measurement} (h : m.SameButTask n) :
    m.errors = n.errors := by
  unfold errors
  rw [h.validator_eq]

/-- The measurement of this name is in the archive `c` what it is in `a`, but for its task. -/
def Archive.Retains (a c : Archive) (id : MeasurementId) : Prop :=
  ∃ m n, a.measurements.find? id = some m ∧ c.measurements.find? id = some n ∧ n.SameButTask m

/-! ## Details

A detail is refused for a measurement that is not stored, and for a kind without a validator. -/

/-- The detail of the measurement of a name. -/
def Archive.detail (a : Archive) (id : MeasurementId) : Except RunError ErrorDetail :=
  ((ErrorDetail.ofStore Archive.store id).perform a).value

section Detail

variable {a c : Archive} {id : MeasurementId} {m n : Measurement}

/-- **The detail of a stored measurement is a score of it**, unless its kind has no validator. -/
theorem Archive.detail_eq (h : a.measurements.find? id = some m) :
    a.detail id = match Validator.of? m with
      | .ok v => .ok (.ofMeasurement m v)
      | .error e => .error (.unsupported e) := by
  have hread : (Attempt.read (Archive.store.measurement id)).outcome a = (.ok (some m), a) :=
    congrArg (fun x => (Except.ok x, a)) h
  have houtcome : (ErrorDetail.ofStore Archive.store id).outcome a =
      (match Validator.of? m with
        | .ok v => .ok (.ofMeasurement m v)
        | .error e => .error (.unsupported e), a) := by
    unfold ErrorDetail.ofStore
    rw [Attempt.outcome_bind_ok hread]
    cases hv : Validator.of? m <;> simp only [hv] <;> rfl
  exact congrArg Prod.fst houtcome

theorem Archive.detail_unsupported_iff (h : a.measurements.find? id = some m) :
    (∃ e, a.detail id = .error (.unsupported e)) ↔ m.kind.isValidated = false := by
  rw [Archive.detail_eq h, ← Validator.of?_isOk]
  cases Validator.of? m with
  | ok v => simp [Except.isOk, Except.toBool]
  | error e => simp [Except.isOk, Except.toBool]

/-- The errors of a detail are those of the measurement. -/
theorem Archive.errors_of_detail (h : a.measurements.find? id = some m) {d : ErrorDetail}
    (hd : a.detail id = .ok d) : d.outcome.errors = m.errors := by
  rw [Archive.detail_eq h] at hd
  unfold Measurement.errors
  cases hv : Validator.of? m with
  | error e => rw [hv] at hd; cases hd
  | ok v =>
      rw [hv] at hd
      cases hd
      rfl

/-- An invalid measurement has a detail. -/
theorem Archive.exists_detail (h : a.measurements.find? id = some m)
    (hinvalid : m.isInvalid = true) : ∃ d, a.detail id = .ok d := by
  rw [Archive.detail_eq h]
  unfold Measurement.isInvalid Measurement.errors at hinvalid
  cases hv : Validator.of? m with
  | error e => rw [hv] at hinvalid; cases hinvalid
  | ok v => exact ⟨_, rfl⟩

end Detail

/-! ## Runs and details

An entry of a run points to a record and holds its errors. If the measurement is kept, but for its
task, a detail finds the same errors later. -/

namespace Run

variable {r : Run} {a c : Archive}

/-- The new entries of a run name invalid records, with their errors. -/
theorem exists_record_of_mem_batch {row : Stored EntryId Entry}
    (h : row ∈ (r.batch a).entries) :
    ∃ m ∈ r.records a, m.isInvalid = true ∧ m.id = row.value.measurement ∧
      m.errors = row.value.errors := by
  have hmem : (row.value.measurement, row.value.errors) ∈
      ((r.filings a).flatMap Filing.entries).map fun e => (e.measurement, e.errors) := by
    rw [← (r.filed_leave a).values, List.map_map]
    exact List.mem_map_of_mem
      (f := fun row : Stored EntryId Entry => (row.value.measurement, row.value.errors)) h
  rw [(r.entries_perm a).mem_iff] at hmem
  obtain ⟨m, hm, heq⟩ := List.mem_map.1 hmem
  obtain ⟨hrecord, hboth⟩ := List.mem_filter.1 hm
  obtain ⟨hid, herrors⟩ := Prod.mk.inj heq
  exact ⟨m, hrecord, (Bool.and_eq_true_iff.1 hboth).1, hid, herrors⟩

/-- A run without a limit is about all that lies in its window. -/
theorem mem_records_of_unlimited {m : Measurement} (hlimit : r.limit = none)
    (hm : a.measurements.find? m.id = some m) (hwindow : r.window.contains m.timestamp = true) :
    m ∈ r.records a := by
  rw [r.records_eq_listed, Archive.mem_listed_iff hlimit]
  refine ⟨hm, ?_⟩
  unfold query
  rw [Query.isMatch_ofWindow]
  exact hwindow

/-- **An invalid record with its device has just one of the new entries.** -/
theorem filter_batch_eq {m : Measurement} (hm : m ∈ r.records a) (hinvalid : m.isInvalid = true)
    (hdevice : a.devices.contains m.device = true) :
    ((r.batch a).entries.filter fun row => row.value.measurement = m.id).map (·.value.errors) =
      [m.errors] := by
  have hperm := r.entries_perm a
  rw [← (r.filed_leave a).values, List.map_map] at hperm
  have hones := (hperm.filter fun e => e.1 = m.id).map (·.2)
  -- Among the records, no other one has this name.
  have hrecords : ((r.records a).filter fun n => n.isInvalid && a.devices.contains n.device).filter
      (fun n => n.id = m.id) = [m] := by
    have hnodup : ((r.records a).map (·.id)).Nodup := by
      rw [r.records_eq_listed]
      exact a.nodup_ids_listed r.query
    rw [List.filter_filter]
    obtain ⟨before, after, hsplit⟩ := List.append_of_mem hm
    rw [hsplit, List.map_append, List.map_cons, List.nodup_append, List.nodup_cons] at hnodup
    obtain ⟨-, ⟨hafter, -⟩, hbefore⟩ := hnodup
    have hnone : ∀ ns : List Measurement, (∀ n ∈ ns, n.id ≠ m.id) →
        ns.filter (fun n => decide (n.id = m.id) &&
          (n.isInvalid && a.devices.contains n.device)) = [] := by
      intro ns hns
      rw [List.filter_eq_nil_iff]
      intro n hn hboth
      exact hns n hn (of_decide_eq_true (Bool.and_eq_true_iff.1 hboth).1)
    rw [hsplit, List.filter_append, List.filter_cons_of_pos (by simp [hinvalid, hdevice]),
      hnone before fun n hn => hbefore n.id (List.mem_map_of_mem hn) m.id (.head _),
      hnone after fun n hn heq => hafter (heq ▸ List.mem_map_of_mem hn), List.nil_append]
  rw [List.filter_map, List.filter_map, List.map_map, List.map_map] at hones
  have hsame : ((r.records a).filter fun n => n.isInvalid && a.devices.contains n.device).filter
      ((fun e : MeasurementId × List String => decide (e.1 = m.id)) ∘ fun n => (n.id, n.errors)) =
        [m] := hrecords
  rw [hsame] at hones
  exact List.perm_singleton.1 hones

/-- The kind of a record with its device is reported. -/
theorem isSome_find?_reportOn (unscheduled : List Window) {m : Measurement}
    (hm : m ∈ r.records a) (hdevice : a.devices.contains m.device = true) :
    ((r.reportOn a unscheduled).find? m.kind).isSome = true :=
  ((r.tallies_report unscheduled a).kinds m.kind.tag).2 (.inr ⟨m, hm, hdevice, rfl⟩)

/-- A kind that is reported is marked as unknown just if it has no validator. -/
theorem isUnknown_reportOn {unscheduled : List Window} {k : Kind} {x : KindReport}
    (h : (r.reportOn a unscheduled).find? k = some x) : x.isUnknown = !k.isValidated := by
  obtain ⟨f, hf, rfl, rfl⟩ := (find?_report_eq_some_iff k x).1 h
  exact (tells_of_mem_filings hf).mark

end Run

/-- A run on the archive `a` that reports `rep` and adds the entries `rows` has scored measurements
as they are scored in the archive `c`. -/
structure Run.ScoredAlike (r : Run) (unscheduled : List Window) (a c : Archive) (rep : Report)
    (rows : List (Stored EntryId Entry)) : Prop where
  reports : ((r.execute Archive.store unscheduled).perform a).value = .ok rep
  stores : ((r.execute Archive.store unscheduled).perform a).state.entries = a.entries ++ rows
  /-- A measurement with an entry has a detail, with the errors of the entry. -/
  entries : ∀ row ∈ rows, a.Retains c row.value.measurement →
    ∃ d, c.detail row.value.measurement = .ok d ∧ d.outcome.errors = row.value.errors ∧
      d.outcome.isValid = false
  /-- A measurement with errors in its detail has one entry, if the run was about it. -/
  found : r.limit = none → ∀ m, a.measurements.find? m.id = some m →
    r.window.contains m.timestamp = true → a.devices.contains m.device = true →
      a.Retains c m.id → ∀ d, c.detail m.id = .ok d → d.outcome.errors ≠ [] →
        (rows.filter fun row => row.value.measurement = m.id).map (·.value.errors) =
          [d.outcome.errors]
  /-- A kind that is reported is unknown just if there are no details of its measurements. -/
  unknown : ∀ id m, c.measurements.find? id = some m → ∀ x, rep.find? m.kind = some x →
    (x.isUnknown = true ↔ ∃ e, c.detail id = .error (.unsupported e))
  /-- All kinds are reported of which the run has scored or counted a record. -/
  reported : ∀ m ∈ r.records a, a.devices.contains m.device = true →
    (rep.find? m.kind).isSome = true

/-- **A run and the details score alike.** -/
theorem Run.scoredAlike (r : Run) (unscheduled : List Window) (a c : Archive) :
    r.ScoredAlike unscheduled a c (r.reportOn a unscheduled) (r.batch a).entries := by
  obtain ⟨hvalue, hstate⟩ := r.perform_execute a unscheduled
  constructor
  case reports => exact hvalue
  case stores =>
    rw [hstate]
    exact (r.filed_leave a).entries
  case entries =>
    rintro row hrow ⟨m, n, hm, hn, hsame⟩
    obtain ⟨k, hk, hinvalid, hid, herrors⟩ := exists_record_of_mem_batch hrow
    have hkm := find?_of_mem_records hk
    rw [hid, hm] at hkm
    cases hkm
    have hinvalid' : n.isInvalid = true := by
      unfold Measurement.isInvalid at hinvalid ⊢
      rwa [hsame.errors_eq]
    obtain ⟨d, hd⟩ := Archive.exists_detail hn hinvalid'
    have hd' := (Archive.errors_of_detail hn hd).trans hsame.errors_eq
    refine ⟨d, hd, hd'.trans herrors, ?_⟩
    rw [Outcome.isValid_eq, hd']
    simpa [Measurement.isInvalid] using hinvalid
  case found =>
    -- A measurement with errors in its detail was invalid when the run came to it.
    rintro hlimit m hm hwindow hdevice ⟨k, n, hk, hn, hsame⟩ d hd hne
    rw [hm] at hk
    cases hk
    have herrors := (Archive.errors_of_detail hn hd).trans hsame.errors_eq
    have hinvalid : m.isInvalid = true := by
      rw [herrors] at hne
      simpa [Measurement.isInvalid] using hne
    rw [herrors]
    exact filter_batch_eq (mem_records_of_unlimited hlimit hm hwindow) hinvalid hdevice
  case unknown =>
    intro id m hm x hx
    rw [Archive.detail_unsupported_iff hm, isUnknown_reportOn hx, Bool.not_eq_true']
  case reported => exact fun m hm hdevice => isSome_find?_reportOn unscheduled hm hdevice

/-- A phone with one measurement of a kind, which has no values. -/
def Archive.ofOne (k : Kind) : Archive :=
  ((empty 0).insertDevice ⟨⟨"phone"⟩, none, none, none⟩).insertMeasurement
    ⟨⟨"ping"⟩, k, .epoch, true, .empty, .empty, ⟨"phone"⟩, none⟩

/-- There is a run that finds a record of a given kind. -/
theorem Run.exists_mem_records (k : Kind) :
    ∃ m ∈ ofFirstInstant.records (.ofOne k), m.kind = k ∧
      (Archive.ofOne k).devices.contains m.device = true := by
  let m : Measurement := ⟨⟨"ping"⟩, k, .epoch, true, .empty, .empty, ⟨"phone"⟩, none⟩
  have hm : (Archive.ofOne k).measurements.find? m.id = some m :=
    (OrderedMap.find?_insert _ _ _ _).trans (if_pos rfl)
  have hwindow : ofFirstInstant.window.contains .epoch = true := by decide
  refine ⟨m, mem_records_of_unlimited rfl hm hwindow, rfl, ?_⟩
  show (OrderedMap.insert _ _ _).contains _ = true
  rw [OrderedMap.contains_insert]
  rfl

/-! ## Checks of files

A file with the document of a measurement is read back as that measurement, and then scored. -/

namespace Command

/-- What a check prints of a measurement whose detail is `d`. -/
def checked (id : MeasurementId) (d : ErrorDetail) : String :=
  printJson (.object [
    ("id", .string id.text),
    ("type", .string d.kind.tag),
    ("validation_results", d.outcome.toJson),
    ("details", .string d.values)])

variable {files : Files} {name contents : String} {m n : Measurement} {c : Archive}

theorem load_measurement (hfile : files name = .ok contents)
    (hread : Measurement.codec.read contents = .ok m) :
    load files Measurement.codec name = .ok m := by
  unfold load
  simp only [hfile, hread]

/-- **A check scores a measurement as its detail does.** -/
theorem performCheck_eq (hfile : files name = .ok contents)
    (hread : Measurement.codec.read contents = .ok n) {id : MeasurementId}
    (hm : c.measurements.find? id = some m) (hsame : n.SameButTask m) :
    performCheck files name =
      ((c.detail id).map (checked id)).mapError fun e => ⟨e.message, []⟩ := by
  have hid : n.id = id := by
    rw [hsame.id_eq]
    exact c.named _ ((OrderedMap.find?_eq_some_iff _ _ _).1 hm)
  unfold performCheck
  rw [load_measurement hfile hread, Archive.detail_eq hm, ← hsame.validator_eq]
  dsimp only [bind, Except.bind]
  cases hv : Validator.of? n with
  | error e => rfl
  | ok v =>
      unfold checked ErrorDetail.ofMeasurement
      rw [← hid, ← hsame.kind_eq]
      rfl

end Command

/-! ## All scores

`Archive.ScoresAlike` compares all three ways of scoring, in both directions. -/

/-- All ways to score the measurements of an archive agree. -/
structure Archive.ScoresAlike (c : Archive) : Prop where
  /-- Runs have scored them as they are scored in detail. -/
  runs : ∀ (r : Run) (unscheduled : List Window) (a : Archive),
    ∃ rep rows, r.ScoredAlike unscheduled a c rep rows
  /-- There is no detail just for the measurements of kinds that runs report as unknown. -/
  unsupported : ∀ id m, c.measurements.find? id = some m →
    ((∃ e, c.detail id = .error (.unsupported e)) ↔
      ∃ (r : Run) (a : Archive) (rep : Report) (x : KindReport),
        ((r.execute Archive.store []).perform a).value = .ok rep ∧ rep.find? m.kind = some x ∧
          x.isUnknown = true)
  /-- Other failures there are not. -/
  supported : ∀ id m, c.measurements.find? id = some m →
    (∃ d, c.detail id = .ok d) ∨ ∃ e, c.detail id = .error (.unsupported e)
  /-- A file with the same measurement is checked with the same verdict and details. -/
  checks : ∀ id m, c.measurements.find? id = some m →
    ∀ (files : Command.Files) (name contents : String) (n : Measurement),
      files name = .ok contents → Measurement.codec.read contents = .ok n → n.SameButTask m →
        (∀ d, c.detail id = .ok d →
          Command.performCheck files name = .ok (Command.checked id d)) ∧
        ∀ e, c.detail id = .error (.unsupported e) →
          Command.performCheck files name = .error ⟨e.message, []⟩
  /-- A file with the document of a measurement is one with that measurement. -/
  documents : ∀ m : Measurement, Measurement.codec.read (Measurement.codec.encode m).text = .ok m

/-- **A measurement is scored alike** by runs, in detail and in checks. -/
theorem Archive.scoresAlike (c : Archive) : c.ScoresAlike where
  runs r unscheduled a := ⟨_, _, r.scoredAlike unscheduled a c⟩
  unsupported id m hm := by
    rw [detail_unsupported_iff hm]
    constructor
    · -- Some run meets a record of that kind, and marks the kind as unknown.
      intro hkind
      obtain ⟨n, hn, hk, hdevice⟩ := Run.exists_mem_records m.kind
      have hreported := Run.isSome_find?_reportOn [] hn hdevice
      rw [hk] at hreported
      obtain ⟨x, hx⟩ := Option.isSome_iff_exists.1 hreported
      refine ⟨_, _, _, x, (Run.perform_execute _ _ []).1, hx, ?_⟩
      rw [Run.isUnknown_reportOn hx, hkind]
      rfl
    · rintro ⟨r, a, rep, x, hrep, hx, hunknown⟩
      rw [(r.perform_execute a []).1] at hrep
      cases hrep
      rwa [Run.isUnknown_reportOn hx, Bool.not_eq_true'] at hunknown
  supported id m hm := by
    rw [detail_eq hm]
    cases Validator.of? m with
    | ok v => exact .inl ⟨_, rfl⟩
    | error e => exact .inr ⟨e, rfl⟩
  checks id m hm files name contents n hfile hread hsame := by
    have hcheck := Command.performCheck_eq hfile hread hm hsame
    constructor
    · intro d hd
      rw [hcheck, hd]
      rfl
    · intro e he
      rw [hcheck, he]
      rfl
  documents m := (Measurement.restores 0 m).readsBack.text

end NetAudit
