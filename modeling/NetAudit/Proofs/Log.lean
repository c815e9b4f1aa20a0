import NetAudit.Log.Event

/-!
# What the entries of a log are about

The text of an event begins with a word that says what happened, and its fields follow behind a
blank. `LogEntry.word` reads it off the text, and `Event.word_eq_title` says which word it is. So
the entries of a log can be looked up by their words, as a reader of the lines would do.
-/

namespace NetAudit

/-! ## Words

The text of an event is its title alone, or its title and a blank with fields behind it. A title has
no blank, so it can be told from the fields. -/

/-- The word at the beginning of the text. -/
def Event.word (e : Event) : String := String.ofList (e.text.toList.takeWhile (· ≠ ' '))

/-- The word for a remark. -/
def Remark.title : Remark → String
  | .skipped _ _ => "RULE_SKIPPED"
  | .malformed _ _ => "RULE_INPUT_MALFORMED"
  | .hopWithoutRtt _ => "HOP_RTT_MISSING"

namespace Event

/-- The word for an event. -/
def title : Event → String
  | requestRejected _ _ => "REQUEST_REJECTED"
  | fanoutStarted _ => "RUN_FANOUT"
  | fanoutTruncated _ _ => "RUN_FANOUT_TRUNCATED"
  | jobTaken _ | jobScheduled _ => "JOB_ENQUEUED"
  | jobRefused _ _ => "JOB_ENQUEUE_FAILED"
  | runStarted _ _ _ => "RUN_START"
  | queryFailed _ => "RUN_QUERY_FAILED"
  | deviceMissing _ | deviceLookupFailed _ => "RECORD_SKIPPED"
  | danglingTask _ _ => "TASK_REFERENCE_DANGLING"
  | taskRepaired => "TASK_REFERENCE_REPAIRED"
  | taskRepairFailed _ => "TASK_REFERENCE_REPAIR_FAILED"
  | unknownKindSeen _ => "UNKNOWN_TYPE_SEEN"
  | validatorMissing _ => "VALIDATOR_MISSING"
  | remark r => r.title
  | recordInvalid _ => "RECORD_INVALID"
  | summaryFailed _ _ => "SUMMARY_PERSIST_FAILED"
  | entryFailed _ _ => "ENTRY_PERSIST_FAILED"
  | summaryStored _ _ _ _ => "SUMMARY_PERSISTED"
  | runCompleted _ _ _ _ => "RUN_COMPLETE"
  | notificationFailed _ => "NOTIFICATION_FAILED"
  | notificationSent _ => "NOTIFICATION_SENT"
  | entryOrphaned _ => "DASHBOARD_ENTRY_ORPHANED"
  | measurementMissing _ => "DASHBOARD_MEASUREMENT_MISSING"

/-- A text of a word and the fields behind it, each behind a blank. -/
def Fielded (word text : String) : Prop :=
  ∃ fields, text = word ++ fields ∧ (fields = "" ∨ ∃ rest, fields = " " ++ rest)

namespace Fielded

variable {word text : String}

theorem bare : Fielded word word := ⟨"", String.append_empty.symm, .inl rfl⟩

/-- One field more. -/
theorem blank (h : Fielded word text) (rest : String) : Fielded word (text ++ (" " ++ rest)) := by
  obtain ⟨fields, rfl, rfl | ⟨first, rfl⟩⟩ := h
  · exact ⟨" " ++ rest, by rw [String.append_empty], .inr ⟨rest, rfl⟩⟩
  · exact ⟨" " ++ first ++ (" " ++ rest), String.append_assoc, .inr ⟨_, String.append_assoc⟩⟩

theorem quoted (h : Fielded word text) (name value : String) :
    Fielded word (text ++ quotedField name value) := by
  rw [quotedField, String.append_assoc, String.append_assoc]
  exact h.blank _

theorem plain (h : Fielded word text) (name value : String) :
    Fielded word (text ++ plainField name value) := by
  rw [plainField, String.append_assoc, String.append_assoc]
  exact h.blank _

end Fielded

theorem fielded : (e : Event) → Fielded e.title e.text
  | requestRejected _ _ => .plain (.plain .bare _ _) _ _
  | fanoutStarted _ => .plain .bare _ _
  | fanoutTruncated _ _ => .quoted (.plain .bare _ _) _ _
  | jobTaken _ => .plain (.plain (.plain .bare _ _) _ _) _ _
  | jobScheduled _ => .quoted (.quoted .bare _ _) _ _
  | jobRefused _ _ => .quoted (.quoted .bare _ _) _ _
  | runStarted _ _ _ => .plain (.quoted (.quoted (.quoted .bare _ _) _ _) _ _) _ _
  | queryFailed _ => .quoted .bare _ _
  | deviceMissing _ => .quoted (.quoted .bare _ _) _ _
  | deviceLookupFailed _ => .quoted (.quoted .bare _ _) _ _
  | danglingTask _ _ => .plain (.plain .bare _ _) _ _
  | taskRepaired => .bare
  | taskRepairFailed _ => .quoted .bare _ _
  | unknownKindSeen _ => .quoted .bare _ _
  | validatorMissing _ => .quoted .bare _ _
  | remark (.skipped _ _) => .plain (.plain .bare _ _) _ _
  | remark (.malformed _ _) => .plain (.plain .bare _ _) _ _
  | remark (.hopWithoutRtt _) => .plain .bare _ _
  | recordInvalid _ => .quoted .bare _ _
  | summaryFailed _ _ => .quoted (.quoted .bare _ _) _ _
  | entryFailed _ _ => .quoted (.quoted .bare _ _) _ _
  | summaryStored _ _ _ _ => .plain (.plain (.quoted (.quoted .bare _ _) _ _) _ _) _ _
  | runCompleted _ _ _ _ => .plain (.plain (.plain (.plain .bare _ _) _ _) _ _) _ _
  | notificationFailed _ => .quoted .bare _ _
  | notificationSent _ => .quoted .bare _ _
  | entryOrphaned _ => .plain .bare _ _
  | measurementMissing _ => .plain .bare _ _

theorem blank_not_mem_title (e : Event) : ' ' ∉ e.title.toList := by
  cases e with
  | remark r => cases r <;> simp [title, Remark.title]
  | _ => simp [title]

/-- **The text of an event begins with its word.** -/
theorem word_eq_title (e : Event) : e.word = e.title := by
  obtain ⟨fields, htext, hfields⟩ := e.fielded
  have hword : ∀ c ∈ e.title.toList, decide (c ≠ ' ') = true := by
    intro c hc
    have hne : c ≠ ' ' := fun heq => e.blank_not_mem_title (heq ▸ hc)
    exact decide_eq_true hne
  have hstop : fields.toList.takeWhile (fun c => decide (c ≠ ' ')) = [] := by
    rcases hfields with rfl | ⟨rest, rfl⟩
    · rfl
    · rw [String.toList_append]
      rfl
  rw [word, htext, String.toList_append, List.takeWhile_append_of_pos hword, hstop,
    List.append_nil, String.ofList_toList]

/-- No event is too slight for a log that keeps all but traces. -/
theorem rank_level_le (e : Event) : e.level.rank ≤ Level.debug.rank := by
  cases e <;> exact of_decide_eq_true rfl

end Event

/-! ## Entries

Entries are looked up by their words. What is looked up in several logs in a row is looked up in
each of them. -/

/-- The word of an entry. -/
def LogEntry.word (e : LogEntry) : String := e.event.word

/-- A log that keeps all but traces has a line for each of its entries. -/
theorem logLines_debug (log : List LogEntry) : logLines .debug log = log.map LogEntry.line := by
  have hall : ∀ e ∈ log, decide (e.event.level.rank ≤ Level.debug.rank) = true :=
    fun e _ => decide_eq_true e.event.rank_level_le
  rw [logLines, List.filter_eq_self.2 hall]

/-- The entries with a word. -/
def entriesWith (word : String) (log : List LogEntry) : List LogEntry :=
  log.filter fun e => e.word = word

section Entries

variable {word : String} {e : LogEntry} {log log' : List LogEntry}

theorem entriesWith_singleton :
    entriesWith word [e] = if e.event.title = word then [e] else [] := by
  simp [entriesWith, List.filter_cons, LogEntry.word, Event.word_eq_title]

theorem entriesWith_append :
    entriesWith word (log ++ log') = entriesWith word log ++ entriesWith word log' :=
  List.filter_append ..

theorem entriesWith_flatMap {α : Type} (f : α → List LogEntry) (as : List α) :
    entriesWith word (as.flatMap f) = as.flatMap fun a => entriesWith word (f a) :=
  List.filter_flatMap ..

theorem entriesWith_of_forall (h : ∀ e ∈ log, e.event.title = word) :
    entriesWith word log = log := by
  apply List.filter_eq_self.2
  intro e he
  exact decide_eq_true ((e.event.word_eq_title).trans (h e he))

theorem entriesWith_eq_nil (h : ∀ e ∈ log, e.event.title ≠ word) : entriesWith word log = [] := by
  apply List.filter_eq_nil_iff.2
  intro e he heq
  exact h e he ((e.event.word_eq_title).symm.trans (of_decide_eq_true heq))

end Entries

end NetAudit
