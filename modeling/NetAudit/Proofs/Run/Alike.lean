import NetAudit.Proofs.Run.Together

/-!
# Runs that do the same on archives of which one was repaired further

A run that others have disturbed is compared with the same run alone. `Run.View.Alike` says what
they have in common: they have come as far, counted the same, hold the same records but for cleared
tasks, and have stored the same results under names of their own. A step of the run keeps that
(`Run.View.Alike.take`), and so does whatever others do in between (`Run.View.Alike.disturb`).
-/

namespace NetAudit

/-! ## Results under other names

The store gives new names to what it stores, so two runs that store the same results do it under
different names. Entries are compared by the places of their summaries, not by the names of
these. -/

/-- The summaries of these two names stand in the same place. -/
def Batch.Pairs (x y : Batch) (id id' : SummaryId) : Prop :=
  ∃ p ∈ x.summaries.zip y.summaries, p.1.id = id ∧ p.2.id = id'

/-- The same results under other names: each entry stands under the summary of the same place. -/
structure Batch.SameButNames (x y : Batch) : Prop where
  summaries : y.summaries.map (·.value) = x.summaries.map (·.value)
  entries : List.Forall₂ (fun e f => f.value.measurement = e.value.measurement ∧
    f.value.errors = e.value.errors ∧ x.Pairs y e.value.summary f.value.summary) x.entries y.entries

namespace Batch

variable {x y : Batch} {id id' : SummaryId}

/-- The batch with a summary behind those that it has. -/
def addSummary (x : Batch) (row : Stored SummaryId Summary) : Batch :=
  { x with summaries := x.summaries ++ [row] }

/-- The batch with an entry behind those that it has. -/
def addEntry (x : Batch) (row : Stored EntryId Entry) : Batch :=
  { x with entries := x.entries ++ [row] }

theorem SameButNames.length_eq (h : x.SameButNames y) :
    x.summaries.length = y.summaries.length := by
  have hlen := congrArg List.length h.summaries
  rw [List.length_map, List.length_map] at hlen
  exact hlen.symm

theorem Pairs.addSummary (h : x.Pairs y id id') (hlen : x.summaries.length = y.summaries.length)
    (row row' : Stored SummaryId Summary) :
    (x.addSummary row).Pairs (y.addSummary row') id id' := by
  obtain ⟨p, hp, hid⟩ := h
  refine ⟨p, ?_, hid⟩
  simp only [Batch.addSummary, List.zip_append hlen]
  exact List.mem_append_left _ hp

theorem pairs_addSummary (hlen : x.summaries.length = y.summaries.length)
    (row row' : Stored SummaryId Summary) :
    (x.addSummary row).Pairs (y.addSummary row') row.id row'.id := by
  refine ⟨(row, row'), ?_, rfl, rfl⟩
  simp only [Batch.addSummary, List.zip_append hlen]
  exact List.mem_append_right _ (List.mem_singleton_self _)

/-- The summaries stand in the archive. -/
def StoredIn (x : Batch) (a : Archive) : Prop := x.summaries ⊆ a.summaries

namespace StoredIn

variable {a b : Archive}

theorem hasSummary (h : x.StoredIn a) {s : Stored SummaryId Summary} (hs : s ∈ x.summaries) :
    a.hasSummary s.id := Archive.hasSummary_iff.2 ⟨s, h hs, rfl⟩

theorem mono (h : x.StoredIn a) (hab : a.GrowsTo b) : x.StoredIn b :=
  fun _ hs => hab.summaries.subset (h hs)

theorem addSummary (h : x.StoredIn a) (s : Summary) :
    (x.addSummary ⟨.nth a.first a.summaries.length, s⟩).StoredIn (a.write (.summary s)) :=
  fun _ hs => List.mem_append.2 ((List.mem_append.1 hs).imp_left fun hs => h hs)

end StoredIn

namespace SameButNames

theorem addSummary (h : x.SameButNames y) {row row' : Stored SummaryId Summary}
    (hrow : row'.value = row.value) : (x.addSummary row).SameButNames (y.addSummary row') where
  summaries := by simp [Batch.addSummary, h.summaries, hrow]
  entries := h.entries.imp fun e f hef => ⟨hef.1, hef.2.1, hef.2.2.addSummary h.length_eq row row'⟩

theorem addEntry (h : x.SameButNames y) (hid : x.Pairs y id id') (p : PendingEntry)
    (name name' : EntryId) :
    (x.addEntry ⟨name, p.attach id⟩).SameButNames (y.addEntry ⟨name', p.attach id'⟩) where
  summaries := h.summaries
  entries := List.rel_append h.entries (.cons ⟨rfl, rfl, hid⟩ .nil)

/-- An entry of the one or the other stands under a summary of that. -/
theorem exists_summary (h : x.SameButNames y) {row : Stored EntryId Entry}
    (hrow : row ∈ y.entries) :
    ∃ s ∈ y.summaries, s.id = row.value.summary := by
  obtain ⟨i, hi, rfl⟩ := List.getElem_of_mem hrow
  obtain ⟨-, -, p, hp, -, hid⟩ := h.entries.get (h.entries.length_eq ▸ hi) hi
  exact ⟨p.2, (List.of_mem_zip hp).2, hid⟩

end SameButNames

end Batch

/-! ## Records at hand

Two runs that read the same record at different times may find it with its task and without. This
happens in one direction only, as the archive with more runs is the one where more was cleared. -/

/-- The same record is at hand in two runs, one alone on the archive `a` and one on `b`. If only the
latter lacks the task, that was cleared in `b`. -/
structure Archive.Holds (a b : Archive) (m n : Measurement) : Prop where
  clears : n = m ∨ n = m.withoutTask ∧ b.measurements.find? m.id = some m.withoutTask
  stored : ∃ k, a.measurements.find? m.id = some k ∧ k.SameButTask m

namespace Archive.Holds

variable {a b a' b' : Archive} {m n : Measurement}

theorem sameButTask (h : a.Holds b m n) : n.SameButTask m := by
  rcases h.clears with rfl | ⟨rfl, -⟩ <;> rfl

/-- A record that was just read is at hand. -/
theorem of_read (h : m.ClearsTo n) (hm : a.measurements.find? m.id = some m)
    (hn : b.measurements.find? n.id = some n) : a.Holds b m n := by
  refine ⟨?_, m, hm, rfl⟩
  rcases h with rfl | rfl
  · exact .inl rfl
  · exact .inr ⟨rfl, hn⟩

/-- A record stays at hand whatever tasks are cleared in the two archives. -/
theorem mono (h : a.Holds b m n) (ha : a.ClearsTo a') (hb : b.ClearsTo b') : a'.Holds b' m n := by
  obtain ⟨k, hk, hsame⟩ := h.stored
  obtain ⟨k', hk', hclears⟩ := ha.exists_of_find? hk
  refine ⟨?_, k', hk', hclears.sameButTask.trans hsame⟩
  rcases h.clears with rfl | ⟨rfl, hcleared⟩
  · exact .inl rfl
  · exact .inr ⟨rfl, hb.find?_withoutTask hcleared⟩

end Archive.Holds

/-- The archives went from `a` and `b` to `a'` and `b'`, and what changed is now the same in
both. -/
structure Archive.GrowAlike (a b a' b' : Archive) : Prop where
  left : a.GrowsTo a'
  right : b.GrowsTo b'
  clears : a'.ClearsTo b'
  together : ∀ id, a'.measurements.find? id = a.measurements.find? id ∧
      b'.measurements.find? id = b.measurements.find? id ∨
    b'.measurements.find? id = a'.measurements.find? id

namespace Archive.GrowAlike

variable {a b : Archive} {m n : Measurement}

theorem read (h : a.ClearsTo b) : GrowAlike a b a b :=
  ⟨.refl a, .refl b, h, fun _ => .inl ⟨rfl, rfl⟩⟩

theorem write (h : a.ClearsTo b) (w w' : Write) : GrowAlike a b (a.write w) (b.write w') := by
  obtain ⟨-, ha, hdevices, htasks⟩ := a.write_frame w
  obtain ⟨-, hb, hdevices', htasks'⟩ := b.write_frame w'
  refine ⟨.write a w, .write b w', ⟨?_, ?_, ?_⟩, fun id => .inl ⟨by rw [ha], by rw [hb]⟩⟩
  · rw [hdevices, hdevices', h.devices]
  · rw [htasks, htasks', h.tasks]
  · rw [ha, hb]
    exact h.measurements

theorem visit_sound (a : Archive) (m : Measurement) :
    a.visit m (({} : Outages).visit a 0 m) =
      if a.mends m then a.insertMeasurement m.withoutTask else a := by
  rw [← Outages.clears_sound a 0 m, ← Outages.isRepaired_visit]
  rcases ({} : Outages).visit a 0 m with _ | ⟨device, _ | _⟩ <;> rfl

/-- **The run observes the record here and there.** -/
theorem visit (h : a.ClearsTo b) (hheld : a.Holds b m n) :
    GrowAlike a b (a.visit m (({} : Outages).visit a 0 m))
      (b.visit n (({} : Outages).visit b 0 n)) := by
  obtain ⟨k, hk, hsame⟩ := hheld.stored
  obtain ⟨k', hk', hclears⟩ := h.exists_of_find? hk
  rw [visit_sound, visit_sound]
  rcases hheld.clears with rfl | ⟨rfl, hcleared⟩
  · rw [Archive.mends_congr h.devices h.tasks]
    split
    · refine ⟨.clear hk hsame, .clear hk' (hclears.sameButTask.trans hsame), h.clear_both n,
        fun id => ?_⟩
      rw [find?_clearing, find?_clearing]
      by_cases hid : id = n.id
      · rw [if_pos hid, if_pos hid]
        exact .inr rfl
      · rw [if_neg hid, if_neg hid]
        exact .inl ⟨rfl, rfl⟩
    · exact .read h
  -- What the run would repair alone has been repaired.
  · rw [Archive.mends_withoutTask, if_neg Bool.false_ne_true]
    split
    · refine ⟨.clear hk hsame, .refl b, h.clear_left hcleared, fun id => ?_⟩
      rw [find?_clearing]
      by_cases hid : id = m.id
      · rw [if_pos hid, hid]
        exact .inr hcleared
      · rw [if_neg hid]
        exact .inl ⟨rfl, rfl⟩
    · exact .read h

end Archive.GrowAlike

namespace RecordStream

/-- The streams have the same records at hand, and are alike otherwise. -/
def Alike (a b : Archive) (r s : RecordStream) : Prop :=
  ∃ ns, s = { r with buffer := ns } ∧ List.Forall₂ (a.Holds b) r.buffer ns

namespace Alike

variable {a b : Archive} {r s : RecordStream}

theorem refl_of_nil (h : r.buffer = []) : r.Alike a b r := ⟨[], by rw [← h], by rw [h]; exact .nil⟩

theorem mono {a' b' : Archive} (h : r.Alike a b s) (ha : a.ClearsTo a') (hb : b.ClearsTo b') :
    r.Alike a' b' s := by
  obtain ⟨ns, hs, hns⟩ := h
  exact ⟨ns, hs, hns.imp fun m n hmn => hmn.mono ha hb⟩

theorem ready (h : r.Alike a b s) : List.Forall₂ (a.Holds b) r.ready s.ready := by
  obtain ⟨ns, rfl, hns⟩ := h
  unfold RecordStream.ready
  cases r.query.limit with
  | none => exact hns
  | some n => exact List.forall₂_take _ hns

theorem isOver_eq (h : r.Alike a b s) : s.isOver = r.isOver := by
  obtain ⟨ns, rfl, -⟩ := h
  rfl

theorem advance (h : r.Alike a b s) (n : Nat) : (r.advance n).Alike a b (s.advance n) := by
  obtain ⟨ns, rfl, hns⟩ := h
  exact ⟨ns.drop n, rfl, List.forall₂_drop n hns⟩

theorem withPage {p p' : Page} (h : r.Alike a b s) (hcursor : p'.cursor = p.cursor)
    (hrecords : List.Forall₂ (a.Holds b) p.records p'.records) :
    (r.withPage p).Alike a b (s.withPage p') := by
  obtain ⟨ns, rfl, -⟩ := h
  refine ⟨p'.records, ?_, hrecords⟩
  simp only [RecordStream.withPage, hcursor]

end Alike

end RecordStream

/-- Two tallies have counted the same, but for repairs. -/
structure Tally.Alike (t u : Tally) : Prop where
  accounts : u.accounts = t.accounts
  skipped : u.skipped = t.skipped

theorem Tally.Alike.visit {t u : Tally} (h : t.Alike u) (r : Run) {a b : Archive}
    (hab : a.ClearsTo b) {m n : Measurement} (hsame : n.SameButTask m) :
    (t.visit r m (({} : Outages).visit a 0 m)).Alike
      (u.visit r n (({} : Outages).visit b 0 n)) := by
  have hdevice : (({} : Outages).visit b 0 n).device? = (({} : Outages).visit a 0 m).device? := by
    rw [Outages.device?_visit, Outages.device?_visit]
    show b.devices.find? n.withoutTask.device = a.devices.find? m.withoutTask.device
    rw [hab.devices, hsame]
  obtain ⟨haccounts, hskipped⟩ := Tally.visit_congr_tasks r hsame hdevice h.accounts h.skipped
  exact ⟨haccounts, hskipped⟩

namespace Run

/-- The reports of kinds, without the names of summaries. -/
def blank (reports : List (String × KindReport)) : List (String × KindReport) :=
  reports.map fun e => (e.1, e.2.anonymous)

theorem blank_concat (reports : List (String × KindReport)) (e : String × KindReport) :
    blank (reports ++ [e]) = blank reports ++ [(e.1, e.2.anonymous)] := List.map_append

/-- What an answer says, without the names of summaries and the number of repairs. -/
def told (answer : Except RunError Report) : Except RunError (String × Report) :=
  answer.map fun rep => (rep.run, rep.anonymous)

theorem told_reportOf (r : Run) (unscheduled : List Window) {t u : Tally} (h : t.Alike u)
    {reports reports' : List (String × KindReport)} (hblank : blank reports' = blank reports) :
    told (.ok (r.reportOf unscheduled u reports')) =
      told (.ok (r.reportOf unscheduled t reports)) := by
  have hkinds : ∀ reports : List (String × KindReport),
      (OrderedMap.ofList reports).mapValues KindReport.anonymous = .ofList (blank reports) :=
    fun reports => OrderedMap.mapValues_ofList _ _
  simp only [told, Except.map, reportOf, Report.anonymous, entryCount, hkinds, hblank, h.accounts,
    h.skipped]

/-- The runs have come as far, one alone on the archive `a`, where it has stored the results `x`,
and one on `b`, where it has stored `y`. -/
inductive Progress.Alike (a b : Archive) (x y : Batch) : Progress → Progress → Prop
  | start : Alike a b x y .start .start
  | reading (pages : Nat) {stream stream' : RecordStream} {t t' : Tally}
      (hstream : stream.Alike a b stream') (ht : t.Alike t') :
      Alike a b x y (.reading pages stream t) (.reading pages stream' t')
  | storing (left : List (Kind × Account)) {reports reports' : List (String × KindReport)}
      {t t' : Tally} (ht : t.Alike t') (hreports : blank reports' = blank reports) :
      Alike a b x y (.storing t reports left) (.storing t' reports' left)
  | filing (kind : Kind) (acc : Account) (pending : List PendingEntry)
      (left : List (Kind × Account)) {reports reports' : List (String × KindReport)} {t t' : Tally}
      {id id' : SummaryId} (ht : t.Alike t') (hreports : blank reports' = blank reports)
      (hid : x.Pairs y id id') :
      Alike a b x y (.filing t reports kind acc id pending left)
        (.filing t' reports' kind acc id' pending left)
  | finished {answer answer' : Except RunError Report} (h : told answer' = told answer) :
      Alike a b x y (.finished answer) (.finished answer')

theorem Progress.Alike.mono {a b a' b' : Archive} {x y : Batch} {p q : Progress}
    (h : Progress.Alike a b x y p q) (ha : a.ClearsTo a') (hb : b.ClearsTo b') :
    Progress.Alike a' b' x y p q := by
  cases h with
  | start => exact .start
  | reading pages hstream ht => exact .reading pages (hstream.mono ha hb) ht
  | storing left ht hreports => exact .storing left ht hreports
  | filing kind acc pending left ht hreports hid =>
      exact .filing kind acc pending left ht hreports hid
  | finished h => exact .finished h

namespace View

/-- **The run has come as far** among others, with `w`, as alone, with `v`. -/
structure Alike (v w : View) : Prop where
  clears : v.archive.ClearsTo w.archive
  stored : v.batch.StoredIn v.archive
  stored' : w.batch.StoredIn w.archive
  results : v.batch.SameButNames w.batch
  progress : Progress.Alike v.archive w.archive v.batch w.batch v.progress w.progress

theorem Alike.hasSummary {v w : View} (h : v.Alike w) {id id' : SummaryId}
    (hid : v.batch.Pairs w.batch id id') :
    v.archive.hasSummary id ∧ w.archive.hasSummary id' := by
  obtain ⟨p, hp, rfl, rfl⟩ := hid
  obtain ⟨hv, hw⟩ := List.of_mem_zip hp
  exact ⟨h.stored.hasSummary hv, h.stored'.hasSummary hw⟩

/-- No run has stored anything. -/
theorem Alike.start (a : Archive) : Alike ⟨a, ⟨[], []⟩, .start⟩ ⟨a, ⟨[], []⟩, .start⟩ :=
  ⟨.refl a, List.nil_subset _, List.nil_subset _, ⟨rfl, .nil⟩, .start⟩

/-- **What others do does not change that.** -/
theorem Alike.disturb {v w : View} (h : v.Alike w) {b : Archive} (hb : w.archive.GrowsTo b) :
    v.Alike { w with archive := b } where
  clears := h.clears.trans hb.clears
  stored := h.stored
  stored' := h.stored'.mono hb
  results := h.results
  progress := h.progress.mono (.refl _) hb.clears

end View

end Run

end NetAudit
