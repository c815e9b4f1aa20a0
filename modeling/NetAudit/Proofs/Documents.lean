import Mathlib.Data.List.Permutation
import NetAudit.Format.Config
import NetAudit.Format.Request
import NetAudit.Proofs.Json.Records

/-!
# Documents that are read back

Snapshots, requests, configurations, jobs, responses and stored results are read back from the
documents that are written of them.
-/

namespace NetAudit

open Json

variable {n : Nat}

/-! ## Names

Names are written as texts or as identifiers, and these are read back whatever they are. -/

theorem Kind.restores (n : Nat) (k : Kind) : Kind.codec.Restores n k :=
  (Codec.string_restores n k.tag).map k.ofTag_tag

theorem MeasurementId.restores (n : Nat) (id : MeasurementId) :
    MeasurementId.codec.Restores n id :=
  (Codec.string_restores n id.text).map rfl

theorem DeviceId.restores (n : Nat) (id : DeviceId) : DeviceId.codec.Restores n id :=
  (Codec.string_restores n id.text).map rfl

theorem TaskId.restores (n : Nat) (id : TaskId) : TaskId.codec.Restores n id :=
  (Codec.string_restores n id.text).map rfl

theorem SummaryId.restores (n : Nat) (id : SummaryId) : SummaryId.codec.Restores n id :=
  (Codec.uuid_restores n id.uuid).map rfl

theorem EntryId.restores (n : Nat) (id : EntryId) : EntryId.codec.Restores n id :=
  (Codec.uuid_restores n id.uuid).map rfl

theorem Values.restores (n : Nat) (vs : Values) : Values.codec.Restores (n + 1) vs :=
  Codec.dict_restores fun e _ => Codec.string_restores n e.2

/-- A text that may be missing. -/
theorem optionalText_restores (n : Nat) (o : Option String) :
    Codec.string.option.Restores n o :=
  Codec.option_restores fun s _ => ⟨Codec.string_restores n s, nofun⟩

/-! ## Snapshots

Devices, tasks and measurements hold texts and instants only, so there is nothing that could be too
large. -/

theorem DeviceInfo.restores (n : Nat) (d : DeviceInfo) : DeviceInfo.codec.Restores (n + 1) d :=
  Codec.record_restores (by decide)
    ⟨.of_shown (DeviceId.restores n d.id) rfl,
      .of_shown (optionalText_restores n d.manufacturer) rfl,
      .of_shown (optionalText_restores n d.model) rfl,
      .of_shown (optionalText_restores n d.os) rfl, trivial⟩ rfl

theorem TaskInfo.restores (n : Nat) (t : TaskInfo) : TaskInfo.codec.Restores (n + 1) t :=
  Codec.record_restores (by decide)
    ⟨.of_shown (TaskId.restores n t.id) rfl, .of_shown (Kind.restores n t.kind) rfl,
      .of_shown (optionalText_restores n t.tag) rfl,
      .of_shown (optionalText_restores n t.filter) rfl, trivial⟩ rfl

theorem Measurement.restores (n : Nat) (m : Measurement) : Measurement.codec.Restores (n + 2) m :=
  Codec.record_restores (by decide)
    ⟨.of_shown (MeasurementId.restores _ m.id) rfl, .of_shown (Kind.restores _ m.kind) rfl,
      .of_shown (Codec.instant_restores _ m.timestamp) rfl,
      .of_shown (Codec.bool_restores _ m.success) rfl,
      .of_shown (Values.restores n m.parameters) rfl,
      .of_shown (Values.restores n m.values) rfl,
      .of_shown (DeviceId.restores _ m.device) rfl,
      .of_shown (Codec.option_restores fun id _ => ⟨TaskId.restores _ id, nofun⟩) rfl, trivial⟩ rfl

theorem Snapshot.restores (n : Nat) (s : Snapshot) : Snapshot.codec.Restores (n + 4) s :=
  Codec.record_restores (by decide)
    ⟨.of_shown (Codec.list_restores fun d _ => DeviceInfo.restores (n + 1) d) rfl,
      .of_shown (Codec.list_restores fun t _ => TaskInfo.restores (n + 1) t) rfl,
      .of_shown (Codec.list_restores fun m _ => Measurement.restores n m) rfl, trivial⟩ rfl

/-! ## Settings, requests and jobs

Numbers are read with a bound, so a document is read back if its numbers fit. -/

/-- The numbers of a configuration have 64 and 32 bits. -/
structure Config.Fits (c : Config) : Prop where
  pageSize : c.pageSize < Number.countBound
  maxIterations : c.maxIterations < Number.indexBound
  dashboardEntryLimit : c.dashboardEntryLimit < Number.countBound
  timeseriesPointLimit : c.timeseriesPointLimit < Number.countBound
  topErrorLimit : c.topErrorLimit < Number.countBound

theorem Config.restores (n : Nat) {c : Config} (h : c.Fits) : Config.codec.Restores (n + 1) c :=
  Codec.record_restores (by decide)
    ⟨.of_shown (Codec.size_restores n h.pageSize) rfl,
      .of_shown (Codec.iterations_restores n h.maxIterations) rfl,
      .of_shown (Codec.bool_restores n c.printInvalidDetail) rfl,
      .of_shown (Codec.bool_restores n c.printAllValues) rfl,
      .of_shown (Codec.size_restores n h.dashboardEntryLimit) rfl,
      .of_shown (Codec.size_restores n h.timeseriesPointLimit) rfl,
      .of_shown (Codec.size_restores n h.topErrorLimit) rfl,
      .of_shown (optionalText_restores n c.sender) rfl,
      .of_shown (optionalText_restores n c.recipient) rfl,
      .of_shown (Codec.string_restores n c.subject) rfl, trivial⟩ rfl

theorem Presentation.restores (n : Nat) (p : Presentation) : Presentation.codec.Restores n p where
  decode_eq h := by
    cases (h : (Json.string p.name).Reordered _)
    cases p <;> rfl
  survey_eq h _ _ := by
    cases (h : (Json.string p.name).Reordered _)
    rfl

/-- The numbers of a request have 32 and 64 bits. -/
structure RunRequest.Fits (q : RunRequest) : Prop where
  iterations : q.iterations < Number.indexBound
  limit : ∀ k ∈ q.limit, k < Number.countBound

theorem RunRequest.restores (n : Nat) {q : RunRequest} (h : q.Fits) :
    RunRequest.codec.Restores (n + 1) q :=
  Codec.record_restores (by decide)
    ⟨.of_shown (optionalText_restores n q.start) rfl,
      .of_shown (optionalText_restores n q.stop) rfl,
      .of_shown (Codec.iterations_restores n h.iterations) rfl,
      .of_shown (Codec.option_restores fun k hk =>
        ⟨Codec.size_restores n (h.limit k hk), nofun⟩) rfl,
      .of_shown (Presentation.restores n q.presentation) rfl,
      .of_shown (Codec.bool_restores n q.isWorker) rfl, trivial⟩ rfl

theorem Job.restores (n : Nat) {j : Job} (h : j.remainingIterations < Number.indexBound) :
    Job.codec.Restores (n + 1) j :=
  Codec.record_restores (by decide)
    ⟨.of_shown (Codec.instant_restores n j.windowStart) rfl,
      .of_shown (Codec.instant_restores n j.windowEnd) rfl,
      .of_shown (Codec.iterations_restores n h) rfl, trivial⟩ rfl

/-! ## Stored results

A stored result is its name beside its value, and both are fields of one object. -/

/-- Counts of 64 bits. -/
def Counts.Fit (counts : Counts) : Prop := ∀ e ∈ counts.toList, e.2 < Number.countBound

theorem Counts.restores (n : Nat) {counts : Counts} (h : counts.Fit) :
    Counts.codec.Restores (n + 1) counts :=
  Codec.dict_restores fun e he => Codec.count_restores n (h e he)

/-- The counts of a summary have 64 bits. -/
structure Summary.Fits (s : Summary) : Prop where
  recordCount : s.recordCount < Number.countBound
  errorCount : s.errorCount < Number.countBound
  errorCounts : s.errorCounts.Fit

theorem optionalInstant_restores (n : Nat) (o : Option Calendar.Instant) :
    Codec.instant.option.Restores n o :=
  Codec.option_restores fun t _ => ⟨Codec.instant_restores n t, nofun⟩

theorem Summary.restores (n : Nat) {s : Summary} (h : s.Fits) :
    Summary.codec.Restores (n + 2) s := by
  -- A mark is written, and no mark is what counts where there is none.
  have hmark : (Field.omittable "error" Codec.string.option none Option.isNone).Restores (n + 1)
      s.error := ⟨fun _ => optionalText_restores _ s.error, fun hnone =>
        congrArg some (Option.isNone_iff_eq_none.1 hnone).symm⟩
  exact Codec.record_restores (by decide)
    ⟨.of_shown (Kind.restores _ s.kind) rfl,
      .of_shown (optionalInstant_restores _ s.windowStart) rfl,
      .of_shown (optionalInstant_restores _ s.windowEnd) rfl,
      .of_shown (Codec.count_restores _ h.recordCount) rfl,
      .of_shown (Codec.count_restores _ h.errorCount) rfl,
      .of_shown (Counts.restores n h.errorCounts) rfl, hmark, trivial⟩ rfl

theorem Entry.restores (n : Nat) (e : Entry) : Entry.codec.Restores (n + 2) e :=
  Codec.record_restores (by decide)
    ⟨.of_shown (SummaryId.restores _ e.summary) rfl,
      .of_shown (MeasurementId.restores _ e.measurement) rfl,
      .of_shown (Codec.list_restores fun s _ => Codec.string_restores n s) rfl, trivial⟩ rfl

/-- A stored value is restored if none of its fields has the name of the identifier. -/
theorem Stored.restores {ι α : Type} {name : Codec ι} {value : Codec α} {s : Stored ι α}
    {fields : List (String × Json)} (hid : name.Restores n s.id)
    (hvalue : value.Restores (n + 1) s.value) (hn : n + 1 ≤ Document.surveyDepth)
    (hfields : value.encode s.value = .object fields)
    (hnames : ("id" :: fields.map (·.1)).Nodup) : (Stored.codec name value).Restores (n + 1) s := by
  have hpair : (Codec.beside "Stored" "id" name value).Restores (n + 1) (s.id, s.value) :=
    Codec.beside_restores hid hvalue hn hfields hnames
  exact .map (g := fun s : Stored ι α => (s.id, s.value)) hpair rfl

theorem Stored.summary_restores {s : Stored SummaryId Summary} (h : s.value.Fits) :
    (Stored.codec SummaryId.codec Summary.codec).Restores 2 s :=
  Stored.restores (SummaryId.restores 1 s.id) (Summary.restores 0 h) (by decide) rfl
    (Row.nodup_names (by decide) _)

theorem Stored.entry_restores (s : Stored EntryId Entry) :
    (Stored.codec EntryId.codec Entry.codec).Restores 2 s :=
  Stored.restores (EntryId.restores 1 s.id) (Entry.restores 0 s.value) (by decide) rfl
    (Row.nodup_names (by decide) _)

/-! ## Reports and responses

A response has a status and, for some, a report; in which order the two come is not said. -/

theorem Window.restores (n : Nat) (w : Window) : Window.codec.Restores (n + 1) w :=
  Codec.record_restores (by decide)
    ⟨.of_shown (Codec.instant_restores n w.start) rfl,
      .of_shown (Codec.instant_restores n w.stop) rfl, trivial⟩ rfl

/-- The counts of a kind have 64 bits. -/
structure KindReport.Fits (k : KindReport) : Prop where
  recordCount : k.recordCount < Number.countBound
  errorCount : k.errorCount < Number.countBound
  errorCounts : k.errorCounts.Fit

theorem KindReport.restores (n : Nat) {k : KindReport} (h : k.Fits) :
    KindReport.codec.Restores (n + 2) k :=
  Codec.record_restores (by decide)
    ⟨.of_shown (Kind.restores _ k.kind) rfl,
      .of_shown (Codec.option_restores fun id _ => ⟨SummaryId.restores _ id, nofun⟩) rfl,
      .of_shown (Codec.count_restores _ h.recordCount) rfl,
      .of_shown (Codec.count_restores _ h.errorCount) rfl,
      .of_shown (Counts.restores n h.errorCounts) rfl,
      .of_shown (Codec.bool_restores _ k.isUnknown) rfl,
      .of_shown (Codec.list_restores fun s _ => Codec.string_restores n s) rfl, trivial⟩ rfl

/-- The counts of a report have 64 bits. -/
structure Report.Fits (r : Report) : Prop where
  kinds : ∀ e ∈ r.kinds.toList, e.2.Fits
  skipped : r.skipped < Number.countBound
  repaired : r.repaired < Number.countBound
  entryCount : r.entryCount < Number.countBound

theorem Report.restores (n : Nat) {r : Report} (h : r.Fits) : Report.codec.Restores (n + 4) r := by
  have hwindows : (Field.omittable "unscheduled_windows" (Codec.list Window.codec) []
      List.isEmpty).Restores (n + 3) r.unscheduled :=
    ⟨fun _ => Codec.list_restores fun w _ => Window.restores (n + 1) w, fun hnone =>
      congrArg some (List.isEmpty_iff.1 hnone).symm⟩
  exact Codec.record_restores (by decide)
    ⟨.of_shown (Codec.string_restores _ r.run) rfl,
      .of_shown (Codec.instant_restores _ r.windowStart) rfl,
      .of_shown (Codec.instant_restores _ r.windowEnd) rfl,
      .of_shown (Codec.dict_restores fun e he => KindReport.restores n (h.kinds e he)) rfl,
      .of_shown (Codec.count_restores _ h.skipped) rfl,
      .of_shown (Codec.count_restores _ h.repaired) rfl,
      .of_shown (Codec.size_restores _ h.entryCount) rfl, hwindows, trivial⟩ rfl

namespace RunResponse

variable {status content : Document} {s : ResponseStatus} {response : RunResponse}

/-- The name of a status. -/
def statusText : ResponseStatus → String
  | .acknowledged => "acknowledged"
  | .report => "report"
  | .notified => "notified"

theorem decodeStatus_statusText (s : ResponseStatus) :
    decodeStatus (.string (.ok (statusText s))) = .ok s := by
  cases s <;> rfl

/-- The status may come first. -/
theorem ofFields_status_report (hstatus : decodeStatus status = .ok s)
    (hcontent : ofContent s content = .ok response) :
    ofFields none [(.ok "status", status), (.ok "report", content)] = .ok response :=
  (Decoded.bind_ok hstatus _).trans (Decoded.bind_ok hcontent _)

/-- The report may come first: it is kept until the status tells what it is. -/
theorem ofFields_report_status (hstatus : decodeStatus status = .ok s)
    (hcontent : ofContent s content = .ok response)
    (hsurvey : content.survey Document.surveyDepth = .ok ()) :
    ofFields none [(.ok "report", content), (.ok "status", status)] = .ok response :=
  (Decoded.bind_ok hsurvey _).trans ((Decoded.bind_ok hstatus _).trans
    (Decoded.bind_ok (congrArg (Except.mapError Problem.ofKept) hcontent) _))

/-- The counts in the report of a response have 64 bits. -/
def Fits (response : RunResponse) : Prop := ∀ r ∈ response.report?, r.Fits

/-- A status and a report in either order are restored if they tell the response. -/
theorem restores_of_content {r : Report} (hr : r.Fits)
    (hencode : encode response =
      .object [("status", .string (statusText s)), ("report", Report.codec.encode r)])
    (hcontent : ∀ {d}, Report.codec.decode d = .ok r → ofContent s d = .ok response) :
    RunResponse.codec.Restores 5 response := by
  have hrestores := Report.restores 0 hr
  -- Whichever comes first, these are the two fields.
  have hfields : ∀ {j}, (encode response).Reordered j → ∃ content, (Report.codec.encode r).Reordered
      content ∧ (j = .object [("status", .string (statusText s)), ("report", content)] ∨
        j = .object [("report", content), ("status", .string (statusText s))]) := by
    intro j hj
    rw [hencode] at hj
    obtain ⟨others, fields, rfl, hperm, hfields⟩ := hj.exists_fields
    rcases List.perm_pair.1 hperm.symm with rfl | rfl
    · obtain - | ⟨⟨-, hstatus⟩, - | ⟨⟨-, hreport⟩, - | -⟩⟩ := hfields
      cases hstatus
      exact ⟨_, hreport, .inl rfl⟩
    · obtain - | ⟨⟨-, hreport⟩, - | ⟨⟨-, hstatus⟩, - | -⟩⟩ := hfields
      cases hstatus
      exact ⟨_, hreport, .inr rfl⟩
  constructor
  · intro j hj
    obtain ⟨content, hreport, rfl | rfl⟩ := hfields hj
    · exact ofFields_status_report (decodeStatus_statusText s)
        (hcontent (hrestores.decode_eq hreport))
    · exact ofFields_report_status (decodeStatus_statusText s)
        (hcontent (hrestores.decode_eq hreport)) (hrestores.survey_eq hreport (by decide))
  · intro j hj depth hdepth
    obtain ⟨content, hreport, hcases⟩ := hfields hj
    have hsurvey : (Document.ofJson content).survey (depth - 1) = .ok () :=
      hrestores.survey_eq hreport (by omega)
    rcases hcases with rfl | rfl
    · rw [Document.ofJson, Document.survey, if_neg (by omega)]
      exact Codec.surveyFields_ofFields
        (List.forall_mem_cons.2 ⟨rfl, List.forall_mem_singleton.2 hsurvey⟩)
    · rw [Document.ofJson, Document.survey, if_neg (by omega)]
      exact Codec.surveyFields_ofFields
        (List.forall_mem_cons.2 ⟨hsurvey, List.forall_mem_singleton.2 rfl⟩)

theorem acknowledged_restores : RunResponse.codec.Restores 5 acknowledged := by
  have hfields : ∀ {j}, (encode acknowledged).Reordered j → j = encode acknowledged := by
    intro j hj
    obtain ⟨others, fields, rfl, hperm, hfields⟩ :=
      (hj : (Json.object [("status", .string "acknowledged")]).Reordered j).exists_fields
    obtain rfl := List.perm_singleton.1 hperm.symm
    obtain - | ⟨⟨-, hstatus⟩, - | -⟩ := hfields
    cases hstatus
    rfl
  constructor
  · intro j hj
    rw [hfields hj]
    rfl
  · intro j hj depth hdepth
    rw [hfields hj]
    show (if depth ≤ 1 then _ else _) = _
    rw [if_neg (by omega)]
    rfl

theorem restores {response : RunResponse} (h : response.Fits) :
    RunResponse.codec.Restores 5 response := by
  cases response with
  | acknowledged => exact acknowledged_restores
  | report r =>
      exact restores_of_content (s := .report) (h r rfl) rfl (congrArg (Except.map report))
  | notified r =>
      exact restores_of_content (s := .notified) (h r rfl) rfl (congrArg (Except.map notified))

end RunResponse

/-! ## All documents

Each kind of document that is written has its part in `DocumentsReadBack`. -/

/-- **What is written of a document is read back.** Strings and tags may be any, and instants
any of the calendar; numbers are those of 64 bits, and of 32 for days and iterations. A kind with an
unknown tag is restored as well, because no kind beside the known ones has a known tag. -/
structure DocumentsReadBack : Prop where
  snapshot : ∀ s : Snapshot, Snapshot.codec.ReadsBack s
  request : ∀ q : RunRequest, q.Fits → RunRequest.codec.ReadsBack q
  config : ∀ c : Config, c.Fits → Config.codec.ReadsBack c
  job : ∀ j : Job, j.remainingIterations < Number.indexBound → Job.codec.ReadsBack j
  response : ∀ response : RunResponse, response.Fits → RunResponse.codec.ReadsBack response
  summary : ∀ s : Stored SummaryId Summary, s.value.Fits →
    (Stored.codec SummaryId.codec Summary.codec).ReadsBack s
  entry : ∀ e : Stored EntryId Entry, (Stored.codec EntryId.codec Entry.codec).ReadsBack e

theorem documentsReadBack : DocumentsReadBack where
  snapshot s := (Snapshot.restores 0 s).readsBack
  request _ h := (RunRequest.restores 0 h).readsBack
  config _ h := (Config.restores 0 h).readsBack
  job _ h := (Job.restores 0 h).readsBack
  response _ h := (RunResponse.restores h).readsBack
  summary _ h := (Stored.summary_restores h).readsBack
  entry e := (Stored.entry_restores e).readsBack

/-- The largest counts fit. -/
example : Summary.Fits { Summary.new (.ofTag "ping ") with
    recordCount := 0xFFFFFFFFFFFFFFFF, errorCount := 0xFFFFFFFFFFFFFFFF } :=
  ⟨by decide, by decide, nofun⟩

end NetAudit
