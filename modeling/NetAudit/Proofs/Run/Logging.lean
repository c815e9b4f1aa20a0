import Mathlib.Data.List.Induction
import NetAudit.Proofs.Log
import NetAudit.Proofs.Run.Repaired

/-!
# What a run writes to the log

On an archive the log of a run is known from its records and its results. It begins with the run and
ends with the totals; between these come the entries of each record (`Run.recordLog`), in the order
of the records, and then one entry for each summary that was stored (`Run.perform_execute_logged`).
-/

namespace NetAudit

variable {σ α β : Type}

/-! ## Attempts in a row

An attempt that succeeds has written what its parts have written, one after the other. Many parts
write something only if they fail; these are `Attempt.Quiet`. -/

theorem Done.ext {d : Done σ α} {a : α} {s : σ} {log : List LogEntry} (hvalue : d.value = a)
    (hstate : d.state = s) (hlog : d.log = log) : d = ⟨a, s, log⟩ := by
  rw [← hvalue, ← hstate, ← hlog]

/-- The log of two actions in a row. -/
theorem Action.log_bind (x : Action σ α) (f : α → Action σ β) (s : σ) :
    ((x >>= f) s).log = (x s).log ++ (f (x.outcome s).1 (x.outcome s).2).log := rfl

namespace Attempt

theorem perform_bind (x : Attempt σ α) (f : α → Attempt σ β) (s : σ) :
    (x >>= f).perform s =
      match (x.perform s).value with
      | .ok a =>
        ⟨((f a).perform (x.perform s).state).value, ((f a).perform (x.perform s).state).state,
          (x.perform s).log ++ ((f a).perform (x.perform s).state).log⟩
      | .error e => ⟨.error e, (x.perform s).state, (x.perform s).log⟩ := by
  show (x >>= f).run s = _
  rw [ExceptT.run_bind, Action.bind_apply]
  show _ = match (x.run s).value with | .ok a => _ | .error e => _
  cases (x.run s).value with
  | ok a => rfl
  | error e => simp [perform]

/-- The log goes on behind an attempt that succeeds. -/
theorem perform_bind_ok {x : Attempt σ α} {s s' : σ} {a : α} {log : List LogEntry}
    (h : x.perform s = ⟨.ok a, s', log⟩) (f : α → Attempt σ β) :
    (x >>= f).perform s = ⟨((f a).perform s').value, ((f a).perform s').state,
      log ++ ((f a).perform s').log⟩ := by
  rw [perform_bind, h]

/-- Nothing is written to the log, unless the attempt fails. -/
def Quiet (x : Attempt σ α) : Prop := ∀ s a, (x.perform s).value = .ok a → (x.perform s).log = []

theorem perform_log (c : Option LogContext) (e : Event) (s : σ) :
    (Attempt.log c e).perform s = ⟨.ok (), s, [⟨c, e⟩]⟩ := rfl

/-- If two attempts in a row succeed, so does each of them. -/
theorem exists_of_perform_bind {x : Attempt σ α} {f : α → Attempt σ β} {s : σ} {b : β}
    (h : ((x >>= f).perform s).value = .ok b) :
    ∃ a, (x.perform s).value = .ok a ∧
      ((f a).perform (x.perform s).state).value = .ok b ∧
      ((x >>= f).perform s).log = (x.perform s).log ++ ((f a).perform (x.perform s).state).log := by
  rw [perform_bind] at h ⊢
  cases hx : (x.perform s).value with
  | error e =>
      rw [hx] at h
      cases h
  | ok a =>
      rw [hx] at h
      exact ⟨a, rfl, h, rfl⟩

namespace Quiet

theorem pure (a : α) : Quiet (Pure.pure a : Attempt σ α) := fun _ _ _ => rfl

theorem bind {x : Attempt σ α} {f : α → Attempt σ β} (hx : x.Quiet) (hf : ∀ a, (f a).Quiet) :
    (x >>= f).Quiet := by
  intro s b h
  obtain ⟨a, ha, hb, hlog⟩ := exists_of_perform_bind h
  rw [hlog, hx s a ha, hf a _ b hb, List.append_nil]

theorem forM {f : α → Attempt σ Unit} (h : ∀ a, (f a).Quiet) (as : List α) : (as.forM f).Quiet := by
  induction as with
  | nil => exact pure ()
  | cons a as ih => exact bind (h a) fun _ => ih

/-- A refusal is what is written to the log. -/
theorem ask {ε : Type} (c : Option LogContext) (event : ε → Event) (error : ε → RunError)
    (op : σ → Except ε α × σ) : Quiet (Attempt.ask c event error (Action.ofOp op)) := by
  intro s a h
  obtain ⟨answer, hanswer, hb, hlog⟩ := exists_of_perform_bind h
  cases answer with
  | ok b => exact hlog
  | error e => cases hb

end Quiet

end Attempt

/-- What is put into a store without outages is put into the archive. -/
theorem Attempt.Puts.outcome_archive {x : Attempt Outages.State α} {y : Attempt Archive α}
    {b : Archive} {lookups : Nat} {ws : List Write} {a : α} (hx : x.Puts {} ⟨b, lookups⟩ ws a)
    (h : x.Follows Outages.State.archive y) : y.outcome b = (.ok a, b.writeAll ws) := by
  unfold Attempt.Puts at hx
  rw [Outages.put_eq_ok {} fun _ _ => rfl] at hx
  have hfollows := h.outcome_eq ⟨b, lookups⟩
  rw [hx] at hfollows
  exact hfollows

namespace Run

variable (r : Run)

/-! ## Storing

On an archive nothing fails, so storing a tally writes one entry for each summary. -/

/-- What the log says of an account that was stored, if a summary was. -/
def storedLog (kind : Kind) (x : KindReport) : List LogEntry :=
  x.summary.toList.map fun id =>
    ⟨some r.context, .summaryStored kind id x.recordCount x.errorCount⟩

theorem quiet_storeSummary (store : Store σ) (kind : Kind) (x : Summary) :
    (r.storeSummary store kind x).Quiet := .ask _ _ _ _

theorem quiet_storeEntries (store : Store σ) (id : SummaryId) (ps : List PendingEntry) :
    (ps.forM fun p => discard (r.storeEntry store id p)).Quiet := by
  apply Attempt.Quiet.forM
  intro p
  exact .bind (.ask _ _ _ _) fun _ => .pure ()

/-- A summary is written to the log when it was stored with its entries. -/
theorem log_storeAccount {store : Store σ} {kind : Kind} {a : Account} {s : σ}
    {answer : String × KindReport}
    (h : ((r.storeAccount store kind a).perform s).value = .ok answer) :
    ((r.storeAccount store kind a).perform s).log = r.storedLog kind answer.2 := by
  unfold storeAccount at h ⊢
  by_cases hzero : a.summary.recordCount = 0
  · simp only [hzero, if_true] at h ⊢
    cases h
    rfl
  · simp only [hzero, if_false] at h ⊢
    obtain ⟨id, hid, hrest, hlog⟩ := Attempt.exists_of_perform_bind h
    rw [hlog, r.quiet_storeSummary store kind a.summary s id hid, List.nil_append]
    obtain ⟨_, hentries, hrest, hlog⟩ := Attempt.exists_of_perform_bind hrest
    rw [hlog, r.quiet_storeEntries store id a.pending _ _ hentries, List.nil_append]
    cases hrest
    rfl

theorem perform_storeAccount (kind : Kind) (a : Account) (b : Archive) :
    let f := a.filing b.first b.summaries.length kind
    (r.storeAccount Archive.store kind a).perform b =
      ⟨.ok f.report, b.writeAll f.writes, r.storedLog f.kind f.report.2⟩ := by
  intro f
  have houtcome := (r.storeAccount_puts {} kind a ⟨b, 0⟩).outcome_archive
    (r.storeAccount_follows Outages.store_follows kind a)
  have hvalue : ((r.storeAccount Archive.store kind a).perform b).value = .ok f.report :=
    congrArg Prod.fst houtcome
  have hstate : ((r.storeAccount Archive.store kind a).perform b).state = b.writeAll f.writes :=
    congrArg Prod.snd houtcome
  have hlog := r.log_storeAccount hvalue
  exact Done.ext hvalue hstate hlog

/-- The accounts are written to the log in their order. -/
theorem perform_storeAccounts (as : List (Kind × Account)) (b : Archive) :
    let fs := filingsFrom b.first b.summaries.length as
    (as.mapM fun e => r.storeAccount Archive.store e.1 e.2).perform b =
      ⟨.ok (fs.map Filing.report), b.writeAll (fs.flatMap Filing.writes),
        fs.flatMap fun f => r.storedLog f.kind f.report.2⟩ := by
  induction as generalizing b with
  | nil => rfl
  | cons e as ih =>
      obtain ⟨k, a⟩ := e
      have hrest := ih (b.writeAll (a.filing b.first b.summaries.length k).writes)
      -- The names of the other accounts go on after the summary of this one, if it has one.
      rw [Filing.length_summaries_writeAll, (b.writeAll_frame _).1] at hrest
      rw [List.mapM_cons, Attempt.perform_bind_ok (r.perform_storeAccount k a b),
        Attempt.perform_bind_ok hrest]
      simp only [filingsFrom, List.flatMap_cons, List.map_cons, Archive.writeAll_append]
      exact Done.ext rfl rfl (congrArg _ (List.append_nil _))

theorem perform_storeTally (t : Tally) (b : Archive) :
    (r.storeTally Archive.store t).perform b =
      ⟨.ok (.ofList ((t.filings b).map Filing.report)),
        b.writeAll ((t.filings b).flatMap Filing.writes),
        (t.filings b).flatMap fun f => r.storedLog f.kind f.report.2⟩ := by
  unfold storeTally
  rw [Attempt.perform_bind_ok (r.perform_storeAccounts t.accounts.toList b)]
  exact Done.ext rfl rfl (List.append_nil _)

/-! ## Observing

What is written about a record depends on whether its device is there, whether its task is gone,
what its validator says, and whether its kind was met before. -/

/-- The context of what the log says about a record. -/
def recordContext (m : Measurement) : Option LogContext := some (r.context.forMeasurement m.id)

/-- What the log says about a record whose task is gone. -/
def repairLog (a : Archive) (m : Measurement) : List LogEntry :=
  if a.dangles m then
    m.task.toList.map (fun task => ⟨none, .danglingTask m.id task⟩) ++
      [⟨r.recordContext m, .taskRepaired⟩]
  else []

/-- What the log says about a record, if its kind has an account already or not. -/
def recordLog (a : Archive) (known : Bool) (m : Measurement) : List LogEntry :=
  if a.devices.contains m.device then
    r.repairLog a m ++
      ((if known then [] else [⟨r.recordContext m, .unknownKindSeen m.kind⟩]) ++
        scoreLog (r.context.forMeasurement m.id) m)
  else [⟨r.recordContext m, .deviceMissing m.device⟩]

/-- What the repair of a record does on an archive. -/
theorem repairTask_archive {a : Archive} {m : Measurement}
    (h : a.measurements.contains m.id = true) :
    m.repairTask Archive.store a =
      ⟨⟨if a.dangles m then m.withoutTask else m, .ok (a.dangles m)⟩,
        if a.dangles m then a.insertMeasurement m.withoutTask else a,
        if a.dangles m then m.task.toList.map (fun task => ⟨none, .danglingTask m.id task⟩)
          else []⟩ := by
  unfold Measurement.repairTask Archive.dangles
  cases htask : m.task with
  | none => rfl
  | some task =>
      have hlookup : Archive.store.task task a = (.ok (a.tasks.find? task), a) := rfl
      simp only [Action.bind_apply, Action.ofOp_apply, hlookup]
      cases hfound : a.tasks.find? task with
      | some t => simp [OrderedMap.contains, hfound]
      | none =>
          have hwrite : Archive.store.persistMeasurement m.withoutTask a =
              (.ok (), a.insertMeasurement m.withoutTask) := if_pos h
          simp only [Action.bind_apply, Action.log_apply, Action.ofOp_apply, hwrite]
          simp [OrderedMap.contains, hfound, Except.map]

theorem scoreLog_withoutTask (c : LogContext) (m : Measurement) :
    scoreLog c m.withoutTask = scoreLog c m := rfl

/-- **What the log says when a record is observed.** -/
theorem log_observe (t : Tally) {m : Measurement} {a : Archive}
    (h : a.measurements.contains m.id = true) :
    (r.observe Archive.store t m a).log = r.recordLog a (t.accounts.contains m.kind) m := by
  have hlookup : Archive.store.device m.device a = (.ok (a.devices.find? m.device), a) := rfl
  unfold observe recordLog
  simp only [Action.bind_apply, Action.ofOp_apply, hlookup]
  -- A record without its device is only noted as skipped. The lines of the others are those of the
  -- repair and then those of the score.
  cases hdevice : a.devices.find? m.device with
  | none => simp [OrderedMap.contains, hdevice, recordContext]
  | some device =>
      simp only [Action.bind_apply, repairTask_archive h, Action.logAll_apply, Action.pure_apply,
        List.append_nil]
      unfold repairLog
      have hthere : a.devices.contains m.device = true := by
        simp [OrderedMap.contains, hdevice]
      cases hgone : a.dangles m with
      | false =>
          simp only [if_true, hthere, Bool.false_eq_true, if_false, List.nil_append]
          rfl
      | true =>
          simp only [if_true, hthere, List.nil_append, List.append_assoc, scoreLog_withoutTask]
          rfl

/-! ## Records in a row

Repairs change the archive while records are observed, but nothing that a later record is told of
depends on them. So all entries are known from the archive of the beginning. -/

/-- Whether a kind has an account once the records `earlier` were observed. -/
def knows (a : Archive) (earlier : List Measurement) (k : Kind) : Bool :=
  k.isValidated || !(a.counted earlier k).isEmpty

/-- What the log says about records in a row, each by itself, if `earlier` were observed before. -/
def recordLogs (a : Archive) : List Measurement → List Measurement → List (List LogEntry)
  | _, [] => []
  | earlier, m :: ms =>
    r.recordLog a (knows a earlier m.kind) m :: recordLogs a (earlier ++ [m]) ms

theorem recordLogs_concat (a : Archive) (earlier ms : List Measurement) (m : Measurement) :
    r.recordLogs a earlier (ms ++ [m]) =
      r.recordLogs a earlier ms ++ [r.recordLog a (knows a (earlier ++ ms) m.kind) m] := by
  induction ms generalizing earlier with
  | nil => simp [recordLogs]
  | cons n ms ih => simp [recordLogs, ih]

theorem recordLog_congr {a b : Archive} (hdevices : b.devices = a.devices)
    (htasks : b.tasks = a.tasks) (known : Bool) (m : Measurement) :
    r.recordLog b known m = r.recordLog a known m := by
  unfold recordLog repairLog Archive.dangles
  rw [hdevices, htasks]

/-- The accounts that there are after records were observed. -/
theorem contains_ofVisits (a : Archive) (ms : List Measurement) (k : Kind) :
    (Tally.ofVisits r (({} : Outages).visits a 0 ms)).accounts.contains k = knows a ms k := by
  have hscored : scoredOf (({} : Outages).visits a 0 ms) k = a.counted ms k := by
    unfold scoredOf Archive.counted
    rw [scored_visits, List.filter_filter]
    rfl
  rw [(Tally.tells_ofVisits r _).contains k, hscored]
  rfl

theorem foldlM_observe_archive {a : Archive} {ms : List Measurement}
    (h : ∀ m ∈ ms, a.measurements.contains m.id = true) :
    (ms.foldlM (r.observe Archive.store) .initial).outcome a =
      (Tally.ofVisits r (({} : Outages).visits a 0 ms),
        a.afterVisits (({} : Outages).visits a 0 ms)) := by
  have hfollows : (ms.foldlM (r.observe ({} : Outages).store) .initial).Follows
      Outages.State.archive (ms.foldlM (r.observe Archive.store) .initial) :=
    .foldlM_eq (r.observe_follows Outages.store_follows) ms .initial
  have hfold := hfollows.outcome_eq ⟨a, 0⟩
  rw [r.foldlM_observe_outcome {} .initial ms ⟨a, 0⟩ h] at hfold
  exact hfold

theorem contains_afterVisits {a : Archive} {id : MeasurementId} (vs : List (Measurement × Visit))
    (h : a.measurements.contains id = true) :
    (a.afterVisits vs).measurements.contains id = true := by
  unfold Archive.afterVisits
  induction vs generalizing a with
  | nil => exact h
  | cons p vs ih => exact ih (a.contains_visit p.1 p.2 h)

/-- **What the log says when records are observed in a row.** -/
theorem log_foldlM_observe {a : Archive} {ms : List Measurement}
    (h : ∀ m ∈ ms, a.measurements.contains m.id = true) :
    (ms.foldlM (r.observe Archive.store) .initial a).log = (r.recordLogs a [] ms).flatten := by
  induction ms using List.reverseRecOn with
  | nil => rfl
  | append_singleton ms m ih =>
      have hms : ∀ n ∈ ms, a.measurements.contains n.id = true :=
        fun n hn => h n (List.mem_append_left _ hn)
      have hm : a.measurements.contains m.id = true := h m (by simp)
      have hfold := r.foldlM_observe_archive hms
      have hlast : ∀ t b, ([m].foldlM (r.observe Archive.store) t b).log =
          (r.observe Archive.store t m b).log := fun _ _ => List.append_nil _
      -- Visits leave the devices and tasks as they are, and take no measurement away.
      obtain ⟨-, hdevices, htasks, -, -⟩ :=
        a.afterVisits_frame (({} : Outages).visits a 0 ms)
      have hthere := contains_afterVisits (({} : Outages).visits a 0 ms) hm
      rw [List.foldlM_append, Action.log_bind, hfold, ih hms, hlast, r.log_observe _ hthere,
        r.contains_ofVisits, r.recordLog_congr hdevices htasks, r.recordLogs_concat,
        List.nil_append, List.flatten_concat]

/-- **Each page is read before the next, and nothing but the records is written down.** -/
theorem log_forEach (a : Archive) :
    ((RecordStream.ofQuery r.query r.config.pageSize).forEach Archive.store
      (r.observe Archive.store) .initial a).log = (r.recordLogs a [] (r.records a)).flatten := by
  -- Pages are known for stores with outages. The archive follows such a store without any, and the
  -- log is the same on both.
  let o : Outages := {}
  obtain ⟨k, hk, heq⟩ := RecordStream.forEach_eq o.servesPages r.query r.config.pageSize
    (r.keepsRest_observe o) .initial ⟨a, 0⟩
  have hpages : (r.query.cursors a (max r.config.pageSize 1)).findSome? o.page = none :=
    List.findSome?_eq_none_iff.2 fun _ _ => rfl
  simp only [hpages, forall_const] at hk heq
  rw [List.take_of_length_le hk, ← r.records_eq_listed] at heq
  have hstored : ∀ m ∈ r.records a, a.measurements.contains m.id = true :=
    fun m hm => isStored_of_mem_records hm
  have hobserve := r.observe_follows Outages.store_follows
  have hforEach := (RecordStream.forEach_follows Outages.store_follows hobserve
    (.ofQuery r.query r.config.pageSize) .initial).log_eq ⟨a, 0⟩
  have hfoldlM := Action.Follows.log_eq (.foldlM_eq hobserve (r.records a) .initial) ⟨a, 0⟩
  calc _ = ((RecordStream.ofQuery r.query r.config.pageSize).forEach o.store
        (r.observe o.store) .initial ⟨a, 0⟩).log := hforEach.symm
    _ = ((r.records a).foldlM (r.observe o.store) .initial ⟨a, 0⟩).log := by
        rw [heq, Action.bind_apply]
        exact List.append_nil _
    _ = ((r.records a).foldlM (r.observe Archive.store) .initial a).log := hfoldlM
    _ = _ := r.log_foldlM_observe hstored

/-- The records of a run are collected, and the log says so in their order. -/
theorem perform_collect (a : Archive) :
    (r.collect Archive.store).perform a =
      ⟨.ok (r.tally a), a.afterVisits (r.visits a),
        (r.recordLogs a [] (r.records a)).flatten⟩ := by
  have houtcome : (r.collect Archive.store).outcome a =
      (.ok (r.tally a), a.afterVisits (r.visits a)) := by
    obtain ⟨k, hk, hcollect⟩ := r.collect_outcome {} ⟨a, 0⟩
    have hpages : (r.cursors a).findSome? ({} : Outages).page = none :=
      List.findSome?_eq_none_iff.2 fun _ _ => rfl
    simp only [hpages, forall_const] at hk hcollect
    rw [List.take_of_length_le hk] at hcollect
    have hfollows := (r.collect_follows Outages.store_follows).outcome_eq ⟨a, 0⟩
    rw [hcollect] at hfollows
    exact hfollows
  have hvalue : ((r.collect Archive.store).perform a).value = .ok (r.tally a) :=
    congrArg Prod.fst houtcome
  have hstate : ((r.collect Archive.store).perform a).state = a.afterVisits (r.visits a) :=
    congrArg Prod.snd houtcome
  obtain ⟨⟨t, error⟩, -, hrest, hlog⟩ := Attempt.exists_of_perform_bind hvalue
  have hvisits : ((Attempt.of ((RecordStream.ofQuery r.query r.config.pageSize).forEach
      Archive.store (r.observe Archive.store) .initial)).perform a).log = _ :=
    (List.append_nil _).trans (r.log_forEach a)
  -- A page that failed would have left the run without a tally.
  cases error with
  | some e => cases hrest
  | none => exact Done.ext hvalue hstate (hlog.trans ((List.append_nil _).trans hvisits))

/-- What is written between the beginning and the end of a run. -/
def logBetween (a : Archive) : List LogEntry :=
  (r.recordLogs a [] (r.records a)).flatten ++
    (r.filings a).flatMap fun f => r.storedLog f.kind f.report.2

/-- **The log of a run on an archive.** -/
theorem perform_execute_logged (unscheduled : List Window) (a : Archive) :
    let rep := r.reportOn a unscheduled
    (r.execute Archive.store unscheduled).perform a = ⟨.ok rep, r.leave a,
      ⟨some r.context, .runStarted r.startedAt r.window r.limit⟩ :: (r.logBetween a ++
        [⟨some r.context,
          .runCompleted rep.recordTotal rep.errorTotal rep.skipped rep.entryCount⟩])⟩ := by
  intro rep
  obtain ⟨hvalue, hstate⟩ := r.perform_execute a unscheduled
  apply Done.ext hvalue hstate
  obtain ⟨hfirst, -, -, hsummaries, -⟩ := a.afterVisits_frame (r.visits a)
  have hfilings : (r.tally a).filings (a.afterVisits (r.visits a)) = r.filings a := by
    unfold Tally.filings Run.filings
    rw [hfirst, hsummaries]
    rfl
  have hstore := r.perform_storeTally (r.tally a) (a.afterVisits (r.visits a))
  rw [hfilings] at hstore
  unfold execute
  rw [Attempt.perform_bind_ok (Attempt.perform_log _ _ a),
    Attempt.perform_bind_ok (r.perform_collect a), Attempt.perform_bind_ok hstore]
  unfold logBetween
  rw [List.append_assoc]
  rfl

end Run

end NetAudit
