import NetAudit.Proofs.Run.Simulation
import NetAudit.Proofs.Run.Writes

/-!
# What a whole run does

A run on a store with outages goes through its records and then puts the results of its accounts
into the store. `Run.execute_of_page` and `Run.execute_of_pages` say what it answers and leaves
behind, in terms of the visits to the records (`Outages.visits`) and of the results of the tally
(`Tally.filings`).
-/

namespace NetAudit

/-! ## The results of accounts

A `Filing` is an account with the name that its summary gets, or with none if it is empty. Writes,
rows, entries and the report of a kind are all read off it. -/

/-- The results of an account. -/
structure Filing where
  kind : Kind
  account : Account
  /-- The name of the summary; none if nothing was counted. -/
  summary : Option SummaryId

namespace Filing

/-- What is written of an account: nothing, or its summary and then its entries. -/
def writes (f : Filing) : List Write :=
  match f.summary with
  | none => []
  | some id => .summary f.account.summary :: f.account.pending.map fun p => .entry (p.attach id)

/-- What is reported of an account. -/
def report (f : Filing) : String × KindReport := (f.kind.tag, Run.kindReport f.account f.summary)

/-- The row of the summary, if there is one. -/
def rows (f : Filing) : List (Stored SummaryId Summary) :=
  f.summary.toList.map fun id => ⟨id, f.account.summary⟩

/-- The entries under the summary. -/
def entries (f : Filing) : List Entry :=
  f.summary.toList.flatMap fun id => f.account.pending.map (·.attach id)

theorem summaries_writes (f : Filing) :
    f.writes.filterMap Write.summary? = f.rows.map (·.value) := by
  unfold writes rows
  cases f.summary with
  | none => rfl
  | some id =>
      have hentries : (f.account.pending.map fun p => Write.entry (p.attach id)).filterMap
          Write.summary? = [] := by
        rw [List.filterMap_map]
        exact List.filterMap_eq_nil_iff.2 fun _ _ => rfl
      exact congrArg (f.account.summary :: ·) hentries

theorem entries_writes (f : Filing) : f.writes.filterMap Write.entry? = f.entries := by
  unfold writes entries
  cases f.summary with
  | none => rfl
  | some id =>
      show (f.account.pending.map fun p => Write.entry (p.attach id)).filterMap Write.entry? = _
      rw [List.filterMap_map]
      simp [Function.comp_def, Write.entry?]

/-- The names of summaries go on after the writes of an account. -/
theorem length_summaries_writeAll (f : Filing) (a : Archive) :
    (a.writeAll f.writes).summaries.length = a.summaries.length + f.summary.toList.length := by
  rw [Archive.summaries_writeAll, List.length_append, length_storedFrom, summaries_writes,
    List.length_map, rows, List.length_map]

end Filing

/-- The results of one account, with the name for its summary that has the number `n`. -/
def Account.filing (first n : Nat) (k : Kind) (a : Account) : Filing :=
  ⟨k, a, if a.summary.recordCount = 0 then none else some (.nth first n)⟩

/-- The results of accounts, with names that are numbered from `n` on. -/
def filingsFrom (first : Nat) : Nat → List (Kind × Account) → List Filing
  | _, [] => []
  | n, (k, a) :: as =>
    let f := a.filing first n k
    f :: filingsFrom first (n + f.summary.toList.length) as

/-- The results of all accounts of a tally, as they are filed in an archive. -/
def Tally.filings (t : Tally) (a : Archive) : List Filing :=
  filingsFrom a.first a.summaries.length t.accounts.toList

namespace Run

variable (o : Outages) (r : Run)

/-! ## Storing

Storing an account puts the writes of its filing into the store, and stops at the first one that is
refused. -/

theorem storeSummary_puts (kind : Kind) (x : Summary) (s : Outages.State) :
    (r.storeSummary o.store kind x).Puts o s [.summary x]
      (.nth s.archive.first s.archive.summaries.length) := by
  unfold Attempt.Puts storeSummary
  rw [Attempt.outcome_ask]
  show (Except.mapError _ (Outages.guardOp _ _ s).1, (Outages.guardOp _ _ s).2) = _
  unfold Outages.guardOp Outages.put
  cases o.result s.archive.resultCount with
  | some e => rfl
  | none => rfl

/-- An entry can be put into the store if its summary is there. -/
theorem storeEntry_puts {id : SummaryId} (p : PendingEntry) {s : Outages.State}
    (h : s.archive.hasSummary id) :
    ∃ name, (r.storeEntry o.store id p).Puts o s [.entry (p.attach id)] name := by
  have hadd : Archive.addEntry (p.attach id) s.archive =
      (.ok (.nth s.archive.first s.archive.entries.length),
        s.archive.write (.entry (p.attach id))) := if_pos h
  refine ⟨.nth s.archive.first s.archive.entries.length, ?_⟩
  unfold Attempt.Puts storeEntry
  rw [Attempt.outcome_ask]
  show (Except.mapError _ (Outages.guardOp _ _ s).1, (Outages.guardOp _ _ s).2) = _
  unfold Outages.guardOp Outages.put
  cases o.result s.archive.resultCount with
  | some e => rfl
  | none =>
      show (Except.mapError _ (Archive.addEntry (p.attach id) s.archive).1,
        Outages.State.mk (Archive.addEntry (p.attach id) s.archive).2 s.lookups) = _
      rw [hadd]
      rfl

theorem storeEntries_puts {id : SummaryId} (ps : List PendingEntry) {s : Outages.State}
    (h : s.archive.hasSummary id) :
    (ps.forM fun p => discard (r.storeEntry o.store id p)).Puts o s
      (ps.map fun p => .entry (p.attach id)) () := by
  induction ps generalizing s with
  | nil => exact .pure ()
  | cons p ps ih =>
      obtain ⟨name, hentry⟩ := r.storeEntry_puts o p h
      have hfirst : (discard (r.storeEntry o.store id p)).Puts o s [.entry (p.attach id)] () :=
        hentry.map fun _ => ()
      exact hfirst.bind (f := fun _ => ps.forM fun p => discard (r.storeEntry o.store id p))
        (ih (Archive.hasSummary_write h (.entry (p.attach id))))

theorem storeAccount_puts (kind : Kind) (a : Account) (s : Outages.State) :
    let f := a.filing s.archive.first s.archive.summaries.length kind
    (r.storeAccount o.store kind a).Puts o s f.writes f.report := by
  unfold storeAccount Account.filing Filing.writes Filing.report
  by_cases hzero : a.summary.recordCount = 0
  · simp only [hzero, if_true]
    exact .pure _
  · simp only [hzero, if_false]
    apply (r.storeSummary_puts o kind a.summary s).bind
    have hentries := r.storeEntries_puts o a.pending
      (s := ⟨s.archive.write (.summary a.summary), s.lookups⟩)
      (Archive.hasSummary_write_summary a.summary)
    exact hentries.bind_nil fun _ => (Attempt.Puts.pure _).log_bind _ _

theorem storeAccounts_puts (as : List (Kind × Account)) (s : Outages.State) :
    let fs := filingsFrom s.archive.first s.archive.summaries.length as
    (as.mapM fun e => r.storeAccount o.store e.1 e.2).Puts o s (fs.flatMap Filing.writes)
      (fs.map Filing.report) := by
  induction as generalizing s with
  | nil => exact .pure []
  | cons e as ih =>
      obtain ⟨k, a⟩ := e
      have hfirst := r.storeAccount_puts o k a s
      have hrest := ih ⟨s.archive.writeAll
        (a.filing s.archive.first s.archive.summaries.length k).writes, s.lookups⟩
      -- The names of the other accounts go on after the summary of this one, if it has one.
      rw [Filing.length_summaries_writeAll, (s.archive.writeAll_frame _).1] at hrest
      rw [List.mapM_cons]
      exact hfirst.bind (hrest.map _)

/-- **Storing a tally puts its results into the store.** -/
theorem storeTally_puts (t : Tally) (s : Outages.State) :
    (r.storeTally o.store t).Puts o s ((t.filings s.archive).flatMap Filing.writes)
      (.ofList ((t.filings s.archive).map Filing.report)) :=
  (r.storeAccounts_puts o t.accounts.toList s).map OrderedMap.ofList

/-! ## The whole run

A run that gets all its pages is its visits, and then the writes of its filings. A run that does not
has no results. -/

/-- What is reported of a tally. -/
def report (unscheduled : List Window) (t : Tally) (fs : List Filing) : Report where
  run := r.name
  windowStart := r.window.start
  windowEnd := r.window.stop
  kinds := .ofList (fs.map Filing.report)
  skipped := t.skipped
  repaired := t.repaired
  entryCount := entryCount t
  unscheduled

/-- **If a page does not come, no result is written.** -/
theorem execute_of_page (unscheduled : List Window) {s : Outages.State} {e : StoreError}
    (h : (r.cursors s.archive).findSome? o.page = some e) :
    ∃ ms, (r.execute o.store unscheduled).outcome s = (.error (.query e), o.visited s ms) := by
  obtain ⟨k, -, hcollect⟩ := r.collect_outcome o s
  simp only [h] at hcollect
  refine ⟨(r.records s.archive).take k, ?_⟩
  unfold execute
  rw [Attempt.outcome_bind_ok (Attempt.outcome_log _ _ s)]
  exact Attempt.outcome_bind_error hcollect

/-- **If all pages come, every record is visited**, and then the results are put into the store. -/
theorem execute_of_pages (unscheduled : List Window) {s : Outages.State}
    (h : (r.cursors s.archive).findSome? o.page = none) :
    let ms := r.records s.archive
    let t := Tally.ofVisits r (o.visits s.archive s.lookups ms)
    let fs := t.filings s.archive
    let stored := o.put (o.visited s ms) (fs.flatMap Filing.writes)
    (r.execute o.store unscheduled).outcome s =
      (stored.1.map fun _ => r.report unscheduled t fs, stored.2) := by
  intro ms t fs
  obtain ⟨k, hk, hcollect⟩ := r.collect_outcome o s
  simp only [h] at hk hcollect
  rw [List.take_of_length_le (hk trivial)] at hcollect
  obtain ⟨hfirst, -, -, hsummaries, -⟩ :=
    s.archive.afterVisits_frame (o.visits s.archive s.lookups ms)
  -- Visits write no results, so names are given as if there had been none.
  have hfilings : t.filings (o.visited s ms).archive = fs := by
    unfold Outages.visited
    simp only [Tally.filings, hfirst, hsummaries, fs]
  have hstore := r.storeTally_puts o t (o.visited s ms)
  rw [hfilings] at hstore
  unfold execute
  rw [Attempt.outcome_bind_ok (Attempt.outcome_log _ _ s), Attempt.outcome_bind_ok hcollect]
  exact hstore.bind_nil fun s => (Attempt.Puts.pure _).log_bind _ _

/-- What becomes of the records of an archive. -/
def visits (a : Archive) : List (Measurement × Visit) :=
  ({} : Outages).visits a 0 (r.records a)

/-- What is counted of them. -/
def tally (a : Archive) : Tally := .ofVisits r (r.visits a)

/-- The results of the accounts. -/
def filings (a : Archive) : List Filing := (r.tally a).filings a

/-- What is written of them. -/
def writes (a : Archive) : List Write := (r.filings a).flatMap Filing.writes

/-- **A run on an archive succeeds**, with all that it counted reported and written. -/
theorem execute_archive (unscheduled : List Window) (a : Archive) :
    (r.execute Archive.store unscheduled).outcome a =
      (.ok (r.report unscheduled (r.tally a) (r.filings a)),
        (a.afterVisits (r.visits a)).writeAll (r.writes a)) := by
  have hpages : (r.cursors a).findSome? ({} : Outages).page = none :=
    List.findSome?_eq_none_iff.2 fun _ _ => rfl
  have hrun := r.execute_of_pages {} unscheduled (s := ⟨a, 0⟩) hpages
  simp only [Outages.put_eq_ok {} fun _ _ => rfl] at hrun
  have hfollows := (r.execute_follows Outages.store_follows unscheduled).outcome_eq ⟨a, 0⟩
  rw [hrun] at hfollows
  exact hfollows

end Run

/-! ## The report of a tally

The report has one entry for each filing, and the filings are the accounts in the order of their
kinds. -/

section Filings

theorem map_filingsFrom (first n : Nat) (as : List (Kind × Account)) :
    (filingsFrom first n as).map (fun f => (f.kind, f.account)) = as := by
  induction as generalizing n with
  | nil => rfl
  | cons e as ih =>
      rw [filingsFrom, List.map_cons, ih]
      rfl

/-- A summary has a name if something was counted. -/
theorem isSome_summary_of_mem {first n : Nat} {as : List (Kind × Account)} {f : Filing}
    (h : f ∈ filingsFrom first n as) :
    f.summary.isSome = decide (0 < f.account.summary.recordCount) := by
  induction as generalizing n with
  | nil => exact absurd h List.not_mem_nil
  | cons e as ih =>
      rw [filingsFrom] at h
      rcases List.mem_cons.1 h with rfl | h
      · unfold Account.filing
        by_cases hzero : e.2.summary.recordCount = 0
        · simp [hzero]
        · simp [hzero, Nat.pos_of_ne_zero hzero]
      · exact ih h

variable (t : Tally) (a : Archive)

theorem map_filings : (t.filings a).map (fun f => (f.kind, f.account)) = t.accounts.toList :=
  map_filingsFrom _ _ _

/-- The filings stand in the order of their kinds. -/
theorem filings_ascending : (t.filings a).Pairwise fun f g => compare f.kind g.kind = .lt := by
  have h := t.accounts.ascending
  rw [← map_filings t a] at h
  exact List.pairwise_map.1 h

variable {t a}

theorem mem_accounts_of_mem_filings {f : Filing} (h : f ∈ t.filings a) :
    t.accounts.find? f.kind = some f.account := by
  rw [OrderedMap.find?_eq_some_iff, ← map_filings t a]
  exact List.mem_map_of_mem h

theorem exists_mem_filings {k : Kind} {x : Account} (h : t.accounts.find? k = some x) :
    ∃ f ∈ t.filings a, f.kind = k ∧ f.account = x := by
  rw [OrderedMap.find?_eq_some_iff, ← map_filings t a] at h
  obtain ⟨f, hf, heq⟩ := List.mem_map.1 h
  exact ⟨f, hf, (Prod.mk.inj heq).1, (Prod.mk.inj heq).2⟩

theorem nodup_tags_filings : (((t.filings a).map Filing.report).map (·.1)).Nodup := by
  have hkinds : ((t.filings a).map Filing.report).map (·.1) = t.accounts.keys.map Kind.tag := by
    unfold OrderedMap.keys
    rw [← map_filings t a, List.map_map, List.map_map, List.map_map]
    rfl
  rw [hkinds, List.nodup_iff_pairwise_ne, List.pairwise_map]
  exact t.accounts.nodup_keys.imp fun hne heq => hne (Kind.tag_injective heq)

variable {r : Run} {unscheduled : List Window}

/-- **A kind is reported if it has an account**, with what is filed of it. -/
theorem find?_report_eq_some_iff (k : Kind) (x : KindReport) :
    (r.report unscheduled t (t.filings a)).find? k = some x ↔
      ∃ f ∈ t.filings a, f.kind = k ∧ x = Run.kindReport f.account f.summary := by
  show (OrderedMap.ofList ((t.filings a).map Filing.report)).find? k.tag = some x ↔ _
  rw [OrderedMap.find?_ofList_eq_some_iff nodup_tags_filings, List.mem_map]
  constructor
  · rintro ⟨f, hf, heq⟩
    obtain ⟨htag, hx⟩ := Prod.mk.inj heq
    exact ⟨f, hf, Kind.tag_injective htag, hx.symm⟩
  · rintro ⟨f, hf, rfl, rfl⟩
    exact ⟨f, hf, rfl⟩

theorem contains_report (unscheduled : List Window) (k : Kind) :
    (r.report unscheduled t (t.filings a)).kinds.contains k.tag = t.accounts.contains k := by
  rw [Bool.eq_iff_iff]
  unfold OrderedMap.contains
  rw [Option.isSome_iff_exists, Option.isSome_iff_exists]
  constructor
  · rintro ⟨x, hx⟩
    obtain ⟨f, hf, rfl, -⟩ := (find?_report_eq_some_iff k x).1 hx
    exact ⟨f.account, mem_accounts_of_mem_filings hf⟩
  · rintro ⟨x, hx⟩
    obtain ⟨f, hf, hk, -⟩ := exists_mem_filings (a := a) hx
    exact ⟨_, (find?_report_eq_some_iff k _).2 ⟨f, hf, hk, rfl⟩⟩

/-- Sums over a report are sums over the accounts. -/
theorem total_report (count : KindReport → Nat) (count' : Account → Nat)
    (h : ∀ x id, count (Run.kindReport x id) = count' x) :
    Number.total ((r.report unscheduled t (t.filings a)).kinds.values.map count) =
      Number.total (t.accounts.values.map count') := by
  have hperm := OrderedMap.toList_ofList_perm (nodup_tags_filings (t := t) (a := a))
  have hsame : ((t.filings a).map Filing.report).map (fun e => count e.2) =
      t.accounts.toList.map fun e => count' e.2 := by
    rw [← map_filings t a, List.map_map, List.map_map]
    exact List.map_congr_left fun f _ => h f.account f.summary
  unfold OrderedMap.values
  rw [List.map_map, List.map_map]
  exact (Number.total_perm (hperm.map fun e => count e.2)).trans (congrArg Number.total hsame)

end Filings

end NetAudit
