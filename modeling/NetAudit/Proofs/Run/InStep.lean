import NetAudit.Proofs.Run.Alike

/-!
# A run among others is in step with the run alone

Each step of a run is one of a few kinds: it reads, observes a record, stores a summary or stores an
entry. The lemmas say for each what it does to an archive (`Run.next`), to the view of the run
(`Run.take`), and that it does the same to two views that are alike. Together that is
`Run.View.Alike.take`.
-/

namespace NetAudit

namespace Run

/-! ## Steps on an archive

The archive never fails, so each step comes to one result, which is written down here for each kind
of step. -/

section Steps

variable {r : Run} {unscheduled : List Window} {a : Archive} {pages : Nat} {stream : RecordStream}
  {t : Tally} {reports : List (String × KindReport)} {kind : Kind} {x : Account} {id : SummaryId}
  {p : PendingEntry} {pending : List PendingEntry} {left : List (Kind × Account)}

/-- What a step does to an archive. -/
def next (r : Run) (unscheduled : List Window) (p : Progress) (a : Archive) : Progress × Archive :=
  (r.step Archive.store unscheduled p).outcome a

theorem next_start : r.next unscheduled .start a =
    (.reading (a.measurements.size + 1) (.ofQuery r.query r.config.pageSize) .initial, a) := rfl

theorem next_observe {m : Measurement} {ms : List Measurement} (h : stream.ready = m :: ms)
    (hm : a.measurements.contains m.id = true) :
    let v := ({} : Outages).visit a 0 m
    r.next unscheduled (.reading pages stream t) a =
      (.reading pages (stream.advance 1) (t.visit r m v), a.visit m v) := by
  have hobserve := (r.observe_follows Outages.store_follows t m).outcome_eq ⟨a, 0⟩
  rw [r.observe_outcome {} t m ⟨a, 0⟩ hm] at hobserve
  unfold next
  rw [step_observe h, Action.outcome_bind, hobserve]
  rfl

theorem next_read (h : stream.ready = []) (hover : pages = 0 ∨ stream.isOver = true) :
    r.next unscheduled (.reading pages stream t) a = (.storing t [] t.accounts.toList, a) := by
  unfold next
  rw [step_read h hover]
  rfl

theorem next_fetch (h : stream.ready = []) (hover : stream.isOver = false) :
    r.next unscheduled (.reading (pages + 1) stream t) a =
      (match a.page stream.query stream.pageSize stream.cursor with
        | .error e => .finished (.error (.query e))
        | .ok page => .reading pages (stream.withPage page) t, a) := by
  have hfetch : (stream.fetch Archive.store).outcome a =
      ((a.page stream.query stream.pageSize stream.cursor).map stream.withPage, a) := rfl
  unfold next
  rw [step_fetch h hover, Action.outcome_bind, hfetch]
  cases a.page stream.query stream.pageSize stream.cursor <;> rfl

theorem next_skip (h : x.summary.recordCount = 0) :
    r.next unscheduled (.storing t reports ((kind, x) :: left)) a =
      (.storing t (reports ++ [(kind.tag, kindReport x none)]) left, a) := by
  unfold next
  rw [step_skip h]
  rfl

theorem next_summary (h : x.summary.recordCount ≠ 0) :
    r.next unscheduled (.storing t reports ((kind, x) :: left)) a =
      (.filing t reports kind x (.nth a.first a.summaries.length) x.pending left,
        a.write (.summary x.summary)) := by
  have hstore : Action.outcome (r.storeSummary Archive.store kind x.summary).run a =
      (.ok (.nth a.first a.summaries.length), a.write (.summary x.summary)) :=
    Attempt.outcome_ask _ _ _ _ a
  unfold next
  rw [step_summary h, Action.outcome_bind, hstore]
  rfl

theorem next_entry (h : a.hasSummary id) :
    r.next unscheduled (.filing t reports kind x id (p :: pending) left) a =
      (.filing t reports kind x id pending left, a.write (.entry (p.attach id))) := by
  have hadd : Archive.addEntry (p.attach id) a =
      (.ok (.nth a.first a.entries.length), a.write (.entry (p.attach id))) := if_pos h
  have hstore : Action.outcome (r.storeEntry Archive.store id p).run a =
      (.ok (.nth a.first a.entries.length), a.write (.entry (p.attach id))) := by
    refine (Attempt.outcome_ask _ _ _ _ a).trans ?_
    show (Except.mapError _ (Archive.addEntry _ a).1, (Archive.addEntry _ a).2) = _
    rw [hadd]
    rfl
  unfold next
  rw [step_entry, Action.outcome_bind, hstore]
  rfl

end Steps

section Take

variable {r : Run} {unscheduled : List Window} {v : View} {p : Progress}

/-- A step that only reads leaves archive and results as they are. -/
theorem take_read (h : r.next unscheduled v.progress v.archive = (p, v.archive)) :
    r.take unscheduled v = { v with progress := p } := by
  obtain ⟨hvalue, hstate⟩ := Prod.mk.inj h
  unfold take
  simp only [hvalue, hstate, Archive.since, List.drop_length, List.append_nil]

/-- A step that observes a record leaves the archive as after the visit, and adds no results. -/
theorem take_visit {m : Measurement} {x : Visit}
    (h : r.next unscheduled v.progress v.archive = (p, v.archive.visit m x)) :
    r.take unscheduled v = { v with archive := v.archive.visit m x, progress := p } := by
  obtain ⟨hvalue, hstate⟩ := Prod.mk.inj h
  obtain ⟨-, -, -, hsummaries, hentries⟩ := v.archive.visit_frame m x
  unfold take
  simp only [hvalue, hstate, Archive.since, hsummaries, hentries, List.drop_length,
    List.append_nil]

/-- A step that stores a summary has one summary more among the results. -/
theorem take_summary {x : Summary}
    (h : r.next unscheduled v.progress v.archive = (p, v.archive.write (.summary x))) :
    r.take unscheduled v =
      ⟨v.archive.write (.summary x),
        v.batch.addSummary ⟨.nth v.archive.first v.archive.summaries.length, x⟩, p⟩ := by
  obtain ⟨hvalue, hstate⟩ := Prod.mk.inj h
  unfold take
  simp only [hvalue, hstate, Archive.since, Archive.write, List.drop_length, List.append_nil,
    List.drop_left, Batch.addSummary]

/-- A step that stores an entry has one entry more among the results. -/
theorem take_entry {x : Entry}
    (h : r.next unscheduled v.progress v.archive = (p, v.archive.write (.entry x))) :
    r.take unscheduled v =
      ⟨v.archive.write (.entry x),
        v.batch.addEntry ⟨.nth v.archive.first v.archive.entries.length, x⟩, p⟩ := by
  obtain ⟨hvalue, hstate⟩ := Prod.mk.inj h
  unfold take
  simp only [hvalue, hstate, Archive.since, Archive.write, List.drop_length, List.append_nil,
    List.drop_left, Batch.addEntry]

end Take

namespace View

/-- A step leads from the views `v` and `w` to views that are alike, and its changes to both
archives correspond. -/
structure StepsTo (v w v' w' : View) : Prop where
  alike : v'.Alike w'
  grow : v.archive.GrowAlike w.archive v'.archive w'.archive

section Steps

variable {r : Run} {unscheduled : List Window} {a b : Archive} {x y : Batch} {p q p' q' : Progress}

/-- A step that only reads, and leads to progress that is alike, is the same step in both views. -/
theorem StepsTo.read (h : Alike ⟨a, x, p⟩ ⟨b, y, q⟩)
    (hv : r.next unscheduled p a = (p', a)) (hw : r.next unscheduled q b = (q', b))
    (hpq : Progress.Alike a b x y p' q') :
    StepsTo ⟨a, x, p⟩ ⟨b, y, q⟩ (r.take unscheduled ⟨a, x, p⟩) (r.take unscheduled ⟨b, y, q⟩) := by
  rw [take_read hv, take_read hw]
  exact ⟨⟨h.clears, h.stored, h.stored', h.results, hpq⟩, .read h.clears⟩

/-- A run with records at hand observes the same record in both views. -/
theorem StepsTo.observe {pages : Nat} {stream stream' : RecordStream} {t t' : Tally}
    (h : Alike ⟨a, x, .reading pages stream t⟩ ⟨b, y, .reading pages stream' t'⟩)
    (hstream : stream.Alike a b stream') (ht : t.Alike t') {m : Measurement}
    {ms : List Measurement} (hready : stream.ready = m :: ms) :
    StepsTo ⟨a, x, .reading pages stream t⟩ ⟨b, y, .reading pages stream' t'⟩
      (r.take unscheduled ⟨a, x, .reading pages stream t⟩)
      (r.take unscheduled ⟨b, y, .reading pages stream' t'⟩) := by
  have hboth := hstream.ready
  rw [hready, List.forall₂_cons_left_iff] at hboth
  obtain ⟨n, ns, hheld, -, hready'⟩ := hboth
  obtain ⟨k, hk, -⟩ := hheld.stored
  obtain ⟨k', hk', -⟩ := h.clears.exists_of_find? hk
  rw [← hheld.sameButTask.id_eq] at hk'
  have hgrow := Archive.GrowAlike.visit h.clears hheld
  rw [take_visit (next_observe hready (by simp [OrderedMap.contains, hk])),
    take_visit (next_observe hready' (by simp [OrderedMap.contains, hk']))]
  refine ⟨⟨hgrow.clears, h.stored.mono hgrow.left, h.stored'.mono hgrow.right, h.results, ?_⟩,
    hgrow⟩
  exact .reading pages ((hstream.advance 1).mono hgrow.left.clears hgrow.right.clears)
    (ht.visit r h.clears hheld.sameButTask)

/-- A run without records at hand asks for the same page in both views, or ends the reading in
both. -/
theorem StepsTo.fetch {pages : Nat} {stream stream' : RecordStream} {t t' : Tally}
    (h : Alike ⟨a, x, .reading pages stream t⟩ ⟨b, y, .reading pages stream' t'⟩)
    (hstream : stream.Alike a b stream') (ht : t.Alike t') (hready : stream.ready = []) :
    StepsTo ⟨a, x, .reading pages stream t⟩ ⟨b, y, .reading pages stream' t'⟩
      (r.take unscheduled ⟨a, x, .reading pages stream t⟩)
      (r.take unscheduled ⟨b, y, .reading pages stream' t'⟩) := by
  have hready' := hstream.ready
  rw [hready, List.forall₂_nil_left_iff] at hready'
  -- Both runs have nothing at hand, and see alike whether more is to come.
  by_cases hover : pages = 0 ∨ stream.isOver = true
  · refine .read h (next_read hready hover) (next_read hready' (hstream.isOver_eq ▸ hover)) ?_
    rw [ht.accounts]
    exact .storing _ ht rfl
  · obtain ⟨hpages, hmore⟩ := not_or.1 hover
    obtain ⟨pages, rfl⟩ := Nat.exists_eq_succ_of_ne_zero hpages
    have hmore := Bool.eq_false_iff.2 hmore
    refine .read h (next_fetch hready hmore)
      (next_fetch hready' (hstream.isOver_eq.trans hmore)) ?_
    obtain ⟨ns, rfl, hns⟩ := hstream
    rcases h.clears.page stream.query stream.pageSize stream.cursor with
      ⟨e, he, he'⟩ | ⟨page, page', hpage, hpage', hcursor, hrecords⟩
    · simp only [he, he']
      exact .finished rfl
    · simp only [hpage, hpage']
      refine .reading pages (RecordStream.Alike.withPage ⟨ns, rfl, hns⟩ hcursor ?_) ht
      exact hrecords.imp fun m n hmn => .of_read hmn.1 hmn.2.1 hmn.2.2

/-- A run between two accounts stores the same summary in both views, passes the account over in
both, or ends in both. -/
theorem StepsTo.store (h : Alike ⟨a, x, p⟩ ⟨b, y, q⟩) {left : List (Kind × Account)}
    {reports reports' : List (String × KindReport)} {t t' : Tally} (ht : t.Alike t')
    (hreports : blank reports' = blank reports) (hp : p = .storing t reports left)
    (hq : q = .storing t' reports' left) :
    StepsTo ⟨a, x, p⟩ ⟨b, y, q⟩ (r.take unscheduled ⟨a, x, p⟩) (r.take unscheduled ⟨b, y, q⟩) := by
  subst hp hq
  cases left with
  | nil => exact .read h rfl rfl (.finished (told_reportOf r unscheduled ht hreports))
  | cons e left =>
      obtain ⟨kind, acc⟩ := e
      by_cases hzero : acc.summary.recordCount = 0
      · refine .read h (next_skip hzero) (next_skip hzero) (.storing left ht ?_)
        rw [blank_concat, blank_concat, hreports]
      · have hgrow := Archive.GrowAlike.write h.clears (.summary acc.summary) (.summary acc.summary)
        rw [take_summary (next_summary hzero), take_summary (next_summary hzero)]
        exact ⟨⟨hgrow.clears, h.stored.addSummary _, h.stored'.addSummary _,
          h.results.addSummary rfl,
          .filing kind acc acc.pending left ht hreports
            (Batch.pairs_addSummary h.results.length_eq _ _)⟩, hgrow⟩

/-- A run within an account stores the same entry in both views, or is done with the account in
both. -/
theorem StepsTo.file (h : Alike ⟨a, x, p⟩ ⟨b, y, q⟩) {kind : Kind} {acc : Account}
    {pending : List PendingEntry} {left : List (Kind × Account)}
    {reports reports' : List (String × KindReport)} {t t' : Tally} {id id' : SummaryId}
    (ht : t.Alike t') (hreports : blank reports' = blank reports) (hid : x.Pairs y id id')
    (hp : p = .filing t reports kind acc id pending left)
    (hq : q = .filing t' reports' kind acc id' pending left) :
    StepsTo ⟨a, x, p⟩ ⟨b, y, q⟩ (r.take unscheduled ⟨a, x, p⟩) (r.take unscheduled ⟨b, y, q⟩) := by
  subst hp hq
  cases pending with
  | nil =>
      refine .read h rfl rfl (.storing left ht ?_)
      rw [blank_concat, blank_concat, hreports]
      rfl
  | cons e pending =>
      obtain ⟨hsummary, hsummary'⟩ := h.hasSummary hid
      have hgrow := Archive.GrowAlike.write h.clears (.entry (e.attach id)) (.entry (e.attach id'))
      rw [take_entry (next_entry hsummary), take_entry (next_entry hsummary')]
      exact ⟨⟨hgrow.clears, h.stored.mono hgrow.left, h.stored'.mono hgrow.right,
        h.results.addEntry hid e _ _, .filing kind acc pending left ht hreports hid⟩, hgrow⟩

end Steps

/-- **A step of the run is the same step here and there.** -/
theorem Alike.take {v w : View} (h : v.Alike w) (r : Run) (unscheduled : List Window) :
    v.StepsTo w (r.take unscheduled v) (r.take unscheduled w) := by
  obtain ⟨a, x, p⟩ := v
  obtain ⟨b, y, q⟩ := w
  have hprogress : Progress.Alike a b x y p q := h.progress
  cases hprogress with
  | start =>
      refine .read h next_start next_start ?_
      rw [h.clears.size_eq]
      exact .reading _ (.refl_of_nil rfl) ⟨rfl, rfl⟩
  | reading pages hstream ht =>
      rename_i stream stream' t t'
      cases hready : stream.ready with
      | cons m ms => exact .observe h hstream ht hready
      | nil => exact .fetch h hstream ht hready
  | storing left ht hreports => exact .store h ht hreports rfl rfl
  | filing kind acc pending left ht hreports hid => exact .file h ht hreports hid rfl rfl
  | finished htold => exact .read h rfl rfl (.finished htold)

end View

end Run

end NetAudit
