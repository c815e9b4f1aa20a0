import NetAudit.Proofs.Run.Logging

/-!
# The log of a run agrees with its report

Entries are written where a record is skipped, repaired or scored, and the report is made up from
what the tally counts, in other places. They agree all the same. The entries with a word are known
for one record first (`Run.entriesWith_recordLog`), and then for records in a row
(`Run.entriesWith_recordLogs`): a list of the records they are about, in the order of the stream.
Only the first record of a kind without a validator depends on those before it (`Run.newcomers`).
-/

namespace NetAudit

variable {word : String}

/-! ## The entries of one record

One record is told of with several words. For each word it is said which entry there is, if any;
remarks and the like are of no interest here and are set aside (`asides`). -/

/-- What the log says about a score: remarks, and what is reported of the record. -/
theorem exists_scoreLog (c : LogContext) (m : Measurement) : ∃ remarks : List Remark,
    scoreLog c m = remarks.map (fun x => ⟨some c, .remark x⟩) ++
      ((if m.isInvalid then [⟨some c, .recordInvalid m.errors⟩] else []) ++
        if m.kind.isValidated then [] else [⟨some c, .validatorMissing ⟨m.kind⟩⟩]) := by
  unfold scoreLog Measurement.isInvalid Measurement.errors
  cases hvalidated : m.kind.isValidated with
  | false => exact ⟨[], by simp [Validator.of?_eq_error hvalidated]⟩
  | true =>
      obtain ⟨v, hv⟩ := Validator.exists_of?_eq_ok hvalidated
      refine ⟨v.score.remarks, ?_⟩
      simp only [hv, v.score.isValid_eq, if_true, List.append_nil]
      cases v.score.errors.isEmpty <;> rfl

theorem context_of_mem_scoreLog {c : LogContext} {m : Measurement} {e : LogEntry}
    (h : e ∈ scoreLog c m) : e.context = some c := by
  obtain ⟨remarks, hscore⟩ := exists_scoreLog c m
  rw [hscore, List.mem_append, List.mem_append] at h
  rcases h with h | h | h
  · obtain ⟨x, -, rfl⟩ := List.mem_map.1 h
    rfl
  all_goals
    split at h <;> simp at h
    rw [h]

namespace Run

variable {r : Run} {a : Archive} {known : Bool} {m : Measurement}

/-- The words of remarks, and of the look-up of a task. -/
def asides : List String :=
  ["RULE_SKIPPED", "RULE_INPUT_MALFORMED", "HOP_RTT_MISSING", "TASK_REFERENCE_DANGLING"]

/-- The entries about a record with a word of another sort. -/
theorem entriesWith_recordLog (h : word ∉ asides) :
    entriesWith word (r.recordLog a known m) =
      if a.devices.contains m.device then
        (if a.dangles m then entriesWith word [⟨r.recordContext m, .taskRepaired⟩] else []) ++
        ((if known then []
          else entriesWith word [⟨r.recordContext m, .unknownKindSeen m.kind⟩]) ++
        ((if m.isInvalid then entriesWith word [⟨r.recordContext m, .recordInvalid m.errors⟩]
          else []) ++
        (if m.kind.isValidated then []
          else entriesWith word [⟨r.recordContext m, .validatorMissing ⟨m.kind⟩⟩])))
      else entriesWith word [⟨r.recordContext m, .deviceMissing m.device⟩] := by
  -- Remarks about values and the names of tasks that are gone have words of their own.
  obtain ⟨remarks, hscore⟩ := exists_scoreLog (r.context.forMeasurement m.id) m
  have hremarks : ∀ c, entriesWith word (remarks.map fun x => ⟨c, .remark x⟩) = [] := by
    intro c
    apply entriesWith_eq_nil
    intro e he heq
    obtain ⟨x, -, rfl⟩ := List.mem_map.1 he
    apply h
    rw [← heq]
    cases x <;> simp [asides, Event.title, Remark.title]
  have hdangling : entriesWith word
      (m.task.toList.map fun task => ⟨none, .danglingTask m.id task⟩) = [] := by
    apply entriesWith_eq_nil
    intro e he heq
    obtain ⟨task, -, rfl⟩ := List.mem_map.1 he
    apply h
    rw [← heq]
    simp [asides, Event.title]
  have hnil : entriesWith word [] = [] := rfl
  unfold recordLog repairLog
  rw [hscore]
  simp only [apply_ite (entriesWith word), entriesWith_append, hremarks, hdangling, hnil,
    List.nil_append]
  rfl

/-- No record is told of with a word for runs or summaries. -/
theorem entriesWith_recordLog_eq_nil
    (h : word ∈ ["RUN_START", "RUN_COMPLETE", "SUMMARY_PERSISTED"]) :
    entriesWith word (r.recordLog a known m) = [] := by
  have hword : word = "RUN_START" ∨ word = "RUN_COMPLETE" ∨ word = "SUMMARY_PERSISTED" := by
    simpa using h
  rcases hword with rfl | rfl | rfl <;>
    rw [entriesWith_recordLog (by simp [asides])] <;>
    simp [entriesWith_singleton, Event.title]

theorem entriesWith_skipped : entriesWith "RECORD_SKIPPED" (r.recordLog a known m) =
    if !a.devices.contains m.device then
      [⟨r.recordContext m, .deviceMissing m.device⟩] else [] := by
  rw [entriesWith_recordLog (by simp [asides])]
  cases a.devices.contains m.device <;> simp [entriesWith_singleton, Event.title]

theorem entriesWith_repaired : entriesWith "TASK_REFERENCE_REPAIRED" (r.recordLog a known m) =
    if a.mends m then [⟨r.recordContext m, .taskRepaired⟩] else [] := by
  rw [entriesWith_recordLog (by simp [asides])]
  unfold Archive.mends
  cases a.devices.contains m.device <;> simp [entriesWith_singleton, Event.title]

theorem entriesWith_unknown : entriesWith "UNKNOWN_TYPE_SEEN" (r.recordLog a known m) =
    if a.devices.contains m.device && !known then
      [⟨r.recordContext m, .unknownKindSeen m.kind⟩] else [] := by
  rw [entriesWith_recordLog (by simp [asides])]
  cases a.devices.contains m.device <;> cases known <;>
    simp [entriesWith_singleton, Event.title]

theorem entriesWith_missing : entriesWith "VALIDATOR_MISSING" (r.recordLog a known m) =
    if a.devices.contains m.device && !m.kind.isValidated then
      [⟨r.recordContext m, .validatorMissing ⟨m.kind⟩⟩] else [] := by
  rw [entriesWith_recordLog (by simp [asides])]
  cases a.devices.contains m.device <;> cases m.kind.isValidated <;>
    simp [entriesWith_singleton, Event.title]

theorem entriesWith_invalid : entriesWith "RECORD_INVALID" (r.recordLog a known m) =
    if a.devices.contains m.device && m.isInvalid then
      [⟨r.recordContext m, .recordInvalid m.errors⟩] else [] := by
  rw [entriesWith_recordLog (by simp [asides])]
  cases a.devices.contains m.device <;> cases m.isInvalid <;>
    simp [entriesWith_singleton, Event.title]

/-! ## The entries of records in a row

For most words the entries of a list are those of its records. For the word of a kind that is seen
for the first time they depend on what came before, and are those of the `newcomers`. -/

/-- What the log says of each record by itself it says of them in their order. -/
theorem entriesWith_recordLogs {p : Measurement → Bool} {event : Measurement → Event}
    (h : ∀ known m, entriesWith word (r.recordLog a known m) =
      if p m then [⟨r.recordContext m, event m⟩] else [])
    (earlier ms : List Measurement) :
    entriesWith word (r.recordLogs a earlier ms).flatten =
      (ms.filter p).map fun m => ⟨r.recordContext m, event m⟩ := by
  induction ms generalizing earlier with
  | nil => rfl
  | cons m ms ih =>
      rw [recordLogs, List.flatten_cons, entriesWith_append, ih, h, List.filter_cons]
      split <;> rfl

theorem entriesWith_recordLogs_eq_nil
    (h : word ∈ ["RUN_START", "RUN_COMPLETE", "SUMMARY_PERSISTED"])
    (earlier ms : List Measurement) :
    entriesWith word (r.recordLogs a earlier ms).flatten = [] := by
  induction ms generalizing earlier with
  | nil => rfl
  | cons m ms ih =>
      rw [recordLogs, List.flatten_cons, entriesWith_append, entriesWith_recordLog_eq_nil h, ih,
        List.append_nil]

/-- The records of kinds that have no account before them. -/
def newcomers (a : Archive) : List Measurement → List Measurement → List Measurement
  | _, [] => []
  | earlier, m :: ms =>
    let rest := newcomers a (earlier ++ [m]) ms
    if a.devices.contains m.device && !knows a earlier m.kind then m :: rest else rest

theorem newcomers_sublist (a : Archive) (earlier ms : List Measurement) :
    (newcomers a earlier ms).Sublist ms := by
  induction ms generalizing earlier with
  | nil => exact .slnil
  | cons m ms ih =>
      unfold newcomers
      split
      · exact (ih _).cons_cons m
      · exact (ih _).cons m

theorem entriesWith_recordLogs_unknown (earlier ms : List Measurement) :
    entriesWith "UNKNOWN_TYPE_SEEN" (r.recordLogs a earlier ms).flatten =
      (newcomers a earlier ms).map fun m => ⟨r.recordContext m, .unknownKindSeen m.kind⟩ := by
  induction ms generalizing earlier with
  | nil => rfl
  | cons m ms ih =>
      rw [recordLogs, List.flatten_cons, entriesWith_append, ih, entriesWith_unknown, newcomers]
      split <;> rfl

theorem knows_concat (earlier : List Measurement) (k : Kind) :
    knows a (earlier ++ [m]) k =
      (knows a earlier k || (decide (m.kind = k) && a.devices.contains m.device)) := by
  unfold knows
  rw [a.counted_append]
  unfold Archive.counted
  rw [List.filter_singleton]
  cases decide (m.kind = k) && a.devices.contains m.device <;> simp

/-- **The first record of a kind is a newcomer**, and no other. -/
theorem filter_newcomers (earlier ms : List Measurement) (k : Kind) :
    (newcomers a earlier ms).filter (fun m => m.kind = k) =
      if knows a earlier k then [] else (a.counted ms k).head?.toList := by
  induction ms generalizing earlier with
  | nil => cases knows a earlier k <;> rfl
  | cons m ms ih =>
      have hrest := ih (earlier ++ [m])
      rw [knows_concat] at hrest
      have hcounted : a.counted (m :: ms) k =
          if decide (m.kind = k) && a.devices.contains m.device then m :: a.counted ms k
          else a.counted ms k := List.filter_cons
      unfold newcomers
      rw [hcounted]
      cases hdevice : a.devices.contains m.device with
      | false => simpa [hdevice] using hrest
      | true =>
          by_cases hkind : m.kind = k
          · subst hkind
            cases hknows : knows a earlier m.kind <;> simpa [hdevice, hknows] using hrest
          -- A newcomer of another kind is passed over.
          · cases hknows : knows a earlier m.kind <;> simpa [hdevice, hkind, hknows] using hrest

section Newcomers

variable {ms : List Measurement} {k : Kind}

theorem head?_of_mem_newcomers (h : m ∈ newcomers a [] ms) :
    (a.counted ms m.kind).head? = some m := by
  have hfilter : m ∈ (newcomers a [] ms).filter fun n => n.kind = m.kind :=
    List.mem_filter.2 ⟨h, by simp⟩
  rw [filter_newcomers] at hfilter
  split at hfilter
  · exact absurd hfilter List.not_mem_nil
  · exact Option.mem_toList.1 hfilter

/-- There is a newcomer of every kind that was counted and has no validator. -/
theorem mem_kinds_newcomers :
    k ∈ (newcomers a [] ms).map (·.kind) ↔ k.isValidated = false ∧ a.counted ms k ≠ [] := by
  have hiff : k ∈ (newcomers a [] ms).map (·.kind) ↔
      (newcomers a [] ms).filter (fun m => m.kind = k) ≠ [] := by
    rw [List.mem_map, Ne, List.filter_eq_nil_iff]
    simp
  have hnone : knows a [] k = k.isValidated := Bool.or_false _
  rw [hiff, filter_newcomers, hnone]
  cases k.isValidated <;> cases a.counted ms k <;> simp

/-- No kind has two newcomers. -/
theorem nodup_kinds_newcomers : ((newcomers a [] ms).map (·.kind)).Nodup := by
  rw [List.nodup_iff_count_le_one]
  intro k
  have hcount : ((newcomers a [] ms).map (·.kind)).count k =
      ((newcomers a [] ms).filter fun m => m.kind = k).length := by
    rw [List.count_eq_countP, List.countP_map, List.countP_eq_length_filter]
    rfl
  rw [hcount, filter_newcomers]
  cases knows a [] k <;> cases a.counted ms k <;> simp

end Newcomers

/-! ## Where an entry stands

Every entry about a record has the context of that record, or names it. -/

/-- An entry about a record names it. -/
theorem context_of_mem_recordLog {e : LogEntry} (h : e ∈ r.recordLog a known m) :
    e.context = r.recordContext m ∨ ∃ task, e = ⟨none, .danglingTask m.id task⟩ := by
  unfold recordLog at h
  split at h
  · rcases List.mem_append.1 h with h | h
    · unfold repairLog at h
      split at h
      · rcases List.mem_append.1 h with h | h
        · obtain ⟨task, -, rfl⟩ := List.mem_map.1 h
          exact .inr ⟨task, rfl⟩
        · exact .inl (congrArg LogEntry.context (List.mem_singleton.1 h))
      · exact absurd h List.not_mem_nil
    · rcases List.mem_append.1 h with h | h
      · split at h
        · exact absurd h List.not_mem_nil
        · exact .inl (congrArg LogEntry.context (List.mem_singleton.1 h))
      · exact .inl (context_of_mem_scoreLog h)
  · exact .inl (congrArg LogEntry.context (List.mem_singleton.1 h))

theorem forall₂_recordLogs (a : Archive) (earlier ms : List Measurement) :
    List.Forall₂ (fun m block => ∀ e ∈ block,
        e.context = r.recordContext m ∨ ∃ task, e = ⟨none, .danglingTask m.id task⟩)
      ms (r.recordLogs a earlier ms) := by
  induction ms generalizing earlier with
  | nil => exact .nil
  | cons m ms ih => exact .cons (fun _ => context_of_mem_recordLog) (ih _)

/-! ## The entries of summaries

There is one entry for each summary that is stored, and none for a kind without records. -/

theorem entriesWith_storedLog (h : "SUMMARY_PERSISTED" ≠ word) (kind : Kind) (x : KindReport) :
    entriesWith word (r.storedLog kind x) = [] := by
  apply entriesWith_eq_nil
  intro e he
  obtain ⟨id, -, rfl⟩ := List.mem_map.1 he
  exact h

theorem entriesWith_storedLog_self (kind : Kind) (x : KindReport) :
    entriesWith "SUMMARY_PERSISTED" (r.storedLog kind x) = r.storedLog kind x := by
  apply entriesWith_of_forall
  intro e he
  obtain ⟨id, -, rfl⟩ := List.mem_map.1 he
  rfl

theorem length_flatMap_storedLog (xs : List KindReport) :
    (xs.flatMap fun x => r.storedLog x.kind x).length = xs.countP (·.summary.isSome) := by
  induction xs with
  | nil => rfl
  | cons x xs ih =>
      have hfirst : (r.storedLog x.kind x).length = if x.summary.isSome then 1 else 0 := by
        unfold storedLog
        cases x.summary <;> rfl
      rw [List.flatMap_cons, List.length_append, ih, hfirst, List.countP_cons, Nat.add_comm]

end Run

/-! ## Agreement

What the log tells with a word is compared with what the report says. Both are known from the
records: the log by the sections before, and the report by what its accounts tell. -/

/-- Between its beginning and its end, the log of a run of the records `ms` on an archive tells what
the report does. -/
structure Report.LoggedIn (rep : Report) (r : Run) (a : Archive) (ms : List Measurement)
    (log : List LogEntry) : Prop where
  /-- The records without their devices are skipped. -/
  skipped : entriesWith "RECORD_SKIPPED" log =
    (ms.filter fun m => !a.devices.contains m.device).map fun m =>
      ⟨r.recordContext m, .deviceMissing m.device⟩
  skippedCount : (entriesWith "RECORD_SKIPPED" log).length = rep.skipped
  /-- The records are repaired that have their device and refer to a task which is gone. -/
  repaired : entriesWith "TASK_REFERENCE_REPAIRED" log =
    (ms.filter fun m => a.devices.contains m.device && a.dangles m).map fun m =>
      ⟨r.recordContext m, .taskRepaired⟩
  repairedCount : (entriesWith "TASK_REFERENCE_REPAIRED" log).length = rep.repaired
  /-- A kind without a validator is told of with its first record, and not again. -/
  unknown : ∃ news : List Measurement,
    entriesWith "UNKNOWN_TYPE_SEEN" log =
        news.map (fun m => ⟨r.recordContext m, .unknownKindSeen m.kind⟩) ∧
      news.Sublist ms ∧ (news.map (·.kind)).Nodup ∧
      (∀ k, k ∈ news.map (·.kind) ↔
        ∃ x, rep.kinds.find? k.tag = some x ∧ x.isUnknown = true) ∧
      ∀ m ∈ news, (a.counted ms m.kind).head? = some m
  /-- Every record of a kind without a validator is told of. -/
  missing : entriesWith "VALIDATOR_MISSING" log =
    (ms.filter fun m => a.devices.contains m.device && !(Validator.of? m).isOk).map fun m =>
      ⟨r.recordContext m, .validatorMissing ⟨m.kind⟩⟩
  invalid : entriesWith "RECORD_INVALID" log =
    (ms.filter fun m => a.devices.contains m.device && m.isInvalid).map fun m =>
      ⟨r.recordContext m, .recordInvalid m.errors⟩
  invalidCount : (entriesWith "RECORD_INVALID" log).length =
    Number.total (rep.kinds.values.map KindReport.errorCount)
  /-- The sum of the errors, in 64 bits, counts the records that are told to be invalid. -/
  errorTotal : rep.errorTotal = (entriesWith "RECORD_INVALID" log).length % Number.countBound
  /-- The summaries are told of in the order of their kinds. -/
  stored : ∃ xs : List KindReport, xs.Perm rep.kinds.values ∧
    xs.Pairwise (fun x y => compare x.kind y.kind = .lt) ∧
    entriesWith "SUMMARY_PERSISTED" log = xs.flatMap fun x => x.summary.toList.map fun id =>
      ⟨some r.context, .summaryStored x.kind id x.recordCount x.errorCount⟩
  storedCount : (entriesWith "SUMMARY_PERSISTED" log).length =
    rep.kinds.values.countP (·.summary.isSome)
  /-- What is told of a record stands together, and before all that is told of a later one. -/
  inOrder : ∃ blocks stored, log = blocks.flatten ++ stored ∧
    List.Forall₂ (fun m block => ∀ e ∈ block,
      e.context = r.recordContext m ∨ ∃ task, e = ⟨none, .danglingTask m.id task⟩) ms blocks ∧
    ∀ e ∈ stored, e.context = some r.context ∧ e.word = "SUMMARY_PERSISTED"

section Agreement

variable {r : Run} {a : Archive} {unscheduled : List Window}

/-- The entries about records. -/
theorem Run.entriesWith_logBetween (h : "SUMMARY_PERSISTED" ≠ word) :
    entriesWith word (r.logBetween a) =
      entriesWith word (r.recordLogs a [] (r.records a)).flatten := by
  have hstored : ∀ f ∈ r.filings a, entriesWith word (r.storedLog f.kind f.report.2) = [] :=
    fun f _ => entriesWith_storedLog h _ _
  unfold logBetween
  rw [entriesWith_append, entriesWith_flatMap, List.flatMap_eq_nil_iff.2 hstored, List.append_nil]

/-- The entries about summaries. -/
theorem Run.entriesWith_logBetween_stored :
    entriesWith "SUMMARY_PERSISTED" (r.logBetween a) =
      ((r.filings a).map fun f => f.report.2).flatMap fun x => r.storedLog x.kind x := by
  unfold logBetween
  rw [entriesWith_append, entriesWith_recordLogs_eq_nil (by simp), List.nil_append,
    entriesWith_flatMap, List.flatMap_map]
  apply List.flatMap_congr
  intro f hf
  have hkind : f.report.2.kind = f.kind := (tells_of_mem_filings hf).kind
  rw [entriesWith_storedLog_self, hkind]

/-- The results of the accounts are those of the report, in the order of their kinds. -/
theorem Run.map_report_filings (unscheduled : List Window) :
    ((r.filings a).map fun f => f.report.2).Perm (r.reportOn a unscheduled).kinds.values := by
  have hperm := OrderedMap.toList_ofList_perm
    (nodup_tags_filings (t := r.tally a) (a := a))
  have hmap := (hperm.map (·.2)).symm
  rw [List.map_map] at hmap
  exact hmap

theorem Run.map_report_filings_ascending :
    ((r.filings a).map fun f => f.report.2).Pairwise fun x y => compare x.kind y.kind = .lt := by
  have hkind : ∀ f ∈ r.filings a, f.report.2.kind = f.kind :=
    fun f hf => (tells_of_mem_filings hf).kind
  rw [List.pairwise_map]
  apply (filings_ascending (r.tally a) a).imp_of_mem
  intro f g hf hg hlt
  rwa [hkind f hf, hkind g hg]

/-- A kind is reported as unknown if it was counted and has no validator. -/
theorem Run.unknown_reportOn (k : Kind) :
    (∃ x, (r.reportOn a unscheduled).kinds.find? k.tag = some x ∧ x.isUnknown = true) ↔
      k.isValidated = false ∧ a.counted (r.records a) k ≠ [] := by
  have hcontains := (r.tells_tally a).contains k
  rw [r.scoredOf_visits] at hcontains
  have hmark : ∀ f ∈ r.filings a,
      (kindReport f.account f.summary).isUnknown = !f.kind.isValidated :=
    fun f hf => (tells_of_mem_filings hf).mark
  -- Kinds with a validator have an account from the beginning, other kinds with their first record.
  constructor
  · rintro ⟨x, hx, hunknown⟩
    obtain ⟨f, hf, rfl, rfl⟩ := (find?_report_eq_some_iff k x).1 hx
    have hk : f.kind.isValidated = false := by
      rwa [hmark f hf, Bool.not_eq_true'] at hunknown
    have hthere : (r.tally a).accounts.contains f.kind = true := by
      rw [OrderedMap.contains, mem_accounts_of_mem_filings hf]
      rfl
    rw [hcontains, hk] at hthere
    exact ⟨hk, by simpa using hthere⟩
  · rintro ⟨hk, hcounted⟩
    have hthere : (r.tally a).accounts.contains k = true := by
      rw [hcontains, hk]
      simpa using hcounted
    obtain ⟨x, hx⟩ := Option.isSome_iff_exists.1 hthere
    obtain ⟨f, hf, rfl, rfl⟩ := exists_mem_filings (a := a) hx
    refine ⟨_, (find?_report_eq_some_iff f.kind _).2 ⟨f, hf, rfl, rfl⟩, ?_⟩
    rw [hmark f hf, hk]
    rfl

/-- The errors of a report are those of its records. -/
theorem Run.errorCounts_reportOn :
    Number.total ((r.reportOn a unscheduled).kinds.values.map KindReport.errorCount) =
      ((r.records a).filter fun m => a.devices.contains m.device && m.isInvalid).length := by
  have hperm := (r.entries_perm a).length_eq
  rw [List.length_map, List.length_map, r.length_entries, (r.tells_tally a).entryCount_eq] at hperm
  have htotal : Number.total ((r.reportOn a unscheduled).kinds.values.map KindReport.errorCount) =
      Number.total ((r.tally a).accounts.values.map fun x => x.summary.errorCount) :=
    total_report KindReport.errorCount (fun x => x.summary.errorCount) fun _ _ => rfl
  have hfilter : ((r.records a).filter fun m => a.devices.contains m.device && m.isInvalid) =
      (r.records a).filter fun m => m.isInvalid && a.devices.contains m.device :=
    List.filter_congr fun m _ => Bool.and_comm _ _
  rw [hfilter, ← hperm]
  exact htotal

/-- **Between its beginning and its end the log agrees with the report.** -/
theorem Run.loggedIn_reportOn (r : Run) (a : Archive) (unscheduled : List Window) :
    (r.reportOn a unscheduled).LoggedIn r a (r.records a) (r.logBetween a) := by
  -- The words that are about records, each with the records that it is told of.
  have hskipped : entriesWith "RECORD_SKIPPED" (r.logBetween a) = _ :=
    (entriesWith_logBetween (by simp)).trans
      (entriesWith_recordLogs (fun _ _ => entriesWith_skipped) [] _)
  have hrepaired : entriesWith "TASK_REFERENCE_REPAIRED" (r.logBetween a) = _ :=
    (entriesWith_logBetween (by simp)).trans
      (entriesWith_recordLogs (fun _ _ => entriesWith_repaired) [] _)
  have hmissing : entriesWith "VALIDATOR_MISSING" (r.logBetween a) = _ :=
    (entriesWith_logBetween (by simp)).trans
      (entriesWith_recordLogs (fun _ _ => entriesWith_missing) [] _)
  have hinvalid : entriesWith "RECORD_INVALID" (r.logBetween a) = _ :=
    (entriesWith_logBetween (by simp)).trans
      (entriesWith_recordLogs (fun _ _ => entriesWith_invalid) [] _)
  have hinvalidCount : (entriesWith "RECORD_INVALID" (r.logBetween a)).length =
      Number.total ((r.reportOn a unscheduled).kinds.values.map KindReport.errorCount) := by
    rw [hinvalid, List.length_map, errorCounts_reportOn]
  constructor
  case skipped => exact hskipped
  case skippedCount =>
    rw [hskipped, List.length_map, ← List.countP_eq_length_filter]
    exact (r.tallies_report unscheduled a).skipped.symm
  case repaired => exact hrepaired
  case repairedCount =>
    rw [hrepaired, List.length_map, ← List.countP_eq_length_filter]
    exact (r.repaired_reportOn a unscheduled).symm
  case unknown =>
    refine ⟨newcomers a [] (r.records a), ?_, newcomers_sublist a [] _, nodup_kinds_newcomers, ?_,
      fun m hm => head?_of_mem_newcomers hm⟩
    · exact (entriesWith_logBetween (by simp)).trans (entriesWith_recordLogs_unknown [] _)
    · intro k
      rw [mem_kinds_newcomers, unknown_reportOn]
  case missing =>
    simp only [Validator.of?_isOk]
    exact hmissing
  case invalid => exact hinvalid
  case invalidCount => exact hinvalidCount
  case errorTotal =>
    rw [hinvalidCount]
    rfl
  case stored =>
    exact ⟨_, map_report_filings unscheduled, map_report_filings_ascending,
      entriesWith_logBetween_stored⟩
  case storedCount =>
    rw [entriesWith_logBetween_stored, length_flatMap_storedLog,
      (map_report_filings unscheduled).countP_eq]
  case inOrder =>
    refine ⟨_, _, rfl, forall₂_recordLogs a [] _, ?_⟩
    intro e he
    obtain ⟨f, -, he⟩ := List.mem_flatMap.1 he
    obtain ⟨id, -, rfl⟩ := List.mem_map.1 he
    exact ⟨rfl, Event.word_eq_title _⟩

/-- Between its beginning and its end a run tells of neither. -/
theorem Run.entriesWith_logBetween_eq_nil (h : word ∈ ["RUN_START", "RUN_COMPLETE"]) :
    entriesWith word (r.logBetween a) = [] := by
  have hword : word = "RUN_START" ∨ word = "RUN_COMPLETE" := by simpa using h
  rw [entriesWith_logBetween (by rcases hword with rfl | rfl <;> simp),
    entriesWith_recordLogs_eq_nil (by rcases hword with rfl | rfl <;> simp)]

end Agreement

/-- **The log of a run agrees with its report**, on every archive: it begins with the run, ends with
the totals, and in between tells of each record and each summary just what the report counts. -/
theorem Run.execute_logged (r : Run) (unscheduled : List Window) (a : Archive) :
    let done := (r.execute Archive.store unscheduled).perform a
    ∃ rep first between last, done.value = .ok rep ∧
      first = ⟨some r.context, .runStarted r.startedAt r.window r.limit⟩ ∧
      last = ⟨some r.context,
        .runCompleted rep.recordTotal rep.errorTotal rep.skipped rep.entryCount⟩ ∧
      done.log = first :: (between ++ [last]) ∧
      entriesWith "RUN_START" done.log = [first] ∧ entriesWith "RUN_COMPLETE" done.log = [last] ∧
      logLines .debug done.log = done.log.map LogEntry.line ∧
      ((r.stream Archive.store).outcome a).1.1.2 = r.records a ∧
      rep.Tallies a (r.records a) ∧ rep.LoggedIn r a (r.records a) between := by
  intro done
  have hdone : done = _ := r.perform_execute_logged unscheduled a
  have hlog : done.log = _ := congrArg Done.log hdone
  refine ⟨r.reportOn a unscheduled, _, r.logBetween a, _, congrArg Done.value hdone, rfl, rfl,
    hlog, ?_, ?_, logLines_debug _, congrArg (fun x => x.1.2) (r.stream_outcome a),
    r.tallies_report unscheduled a, r.loggedIn_reportOn a unscheduled⟩
  all_goals
    rw [hlog, ← List.singleton_append, entriesWith_append, entriesWith_append,
      entriesWith_logBetween_eq_nil (by simp)]
    simp [entriesWith_singleton, Event.title]

end NetAudit
