import NetAudit.Proofs.Run.Steps
import NetAudit.Proofs.Store.Remembered

/-!
# Repairs of measurements that others write as well

If nobody has written another measurement under its name since it was read, the repair of a
measurement clears the task of the one that is stored and changes nothing else. Otherwise what was
written since is lost: `Shared.repairs_write_back` and `Run.repair_loses_delivery`.

Both a run and a client that keeps what it reads repair only what they have read, so the history of
the archive is `Coherent` at every step.
-/

namespace NetAudit

/-! ## Runs

The invariant of a run is `Run.Holds`: whatever it has at hand was read with the last page, and not
written since by the run itself. A page is observed before the next one is fetched, and no name
comes twice in it. -/

theorem Shared.observe_induction {P R : Shared → Prop} {m : Measurement}
    (hawait : ∀ s, P s → P s.await) (hstay : ∀ s, P s → R s)
    (hwrite : ∀ s, P s → R (s.afterWrite m.withoutTask)) (h : P s) (r : Run) (t : Tally) :
    R (r.observe store t m s).state := by
  have hlookup : store.device m.device s =
      (.ok (s.await.archive.devices.find? m.device), s.await) := ask_eq _ s
  unfold Run.observe
  simp only [Action.bind_apply, Action.ofOp_apply, hlookup]
  cases s.await.archive.devices.find? m.device with
  | none => exact hstay _ (hawait s h)
  | some device =>
      have hrepair := repairTask_induction hawait hstay hwrite (hawait s h)
      have hnote : ∀ c t answer (s : Shared), (Run.noteRepair c t answer s).state = s :=
        fun c t answer s => congrArg Prod.snd (Run.noteRepair_outcome c t answer s)
      simpa only [Action.bind_apply, Action.logAll_apply, Action.pure_apply, hnote] using hrepair

/-- What is known of the measurements that a program has at hand. -/
structure Shared.Knows (Q : List Incident → Measurement → Prop) (ms : List Measurement)
    (s : Shared) : Prop where
  coherent : Coherent Q s.archive s.history
  known : ∀ n ∈ ms, Q s.history n

/-- What is known of the measurements at hand is known as well after others have changed
something. -/
theorem Shared.Knows.await {Q : List Incident → Measurement → Prop} {ms : List Measurement}
    {s : Shared} (h : s.Knows Q ms)
    (hQ : ∀ history c n, Q history n → Q (history ++ [.changed c]) n) : s.await.Knows Q ms where
  coherent := await_induction (fun _ _ c h => h.change c) h.coherent
  known n hn := await_induction (P := fun _ history => Q history n)
    (fun _ history c h => hQ history c n h) (h.known n hn)

/-- The measurement is one of a page, and the program has not written it since. -/
def JustRead (history : List Incident) (n : Measurement) : Prop :=
  ∃ pre ms post, history = pre ++ .read ms :: post ∧ n ∈ ms ∧
    ∀ before m after, .written before m after ∈ post → m.id ≠ n.id

theorem JustRead.concat {history : List Incident} {n : Measurement} (h : JustRead history n)
    {e : Incident} (he : ∀ before m after, e = .written before m after → m.id ≠ n.id) :
    JustRead (history ++ [e]) n := by
  obtain ⟨pre, ms, post, rfl, hn, hpost⟩ := h
  refine ⟨pre, ms, post ++ [e], by simp, hn, fun before m after hmem => ?_⟩
  rcases List.mem_append.1 hmem with hmem | hmem
  · exact hpost before m after hmem
  · exact he before m after (List.mem_singleton.1 hmem).symm

theorem RecordStream.ready_sublist (r : RecordStream) : r.ready.Sublist r.buffer := by
  unfold ready
  cases r.query.limit with
  | none => exact .refl _
  | some n => exact List.take_sublist _ _

theorem Archive.measurements_addEntry (e : Entry) (a : Archive) :
    (addEntry e a).2.measurements = a.measurements := by
  unfold addEntry
  split <;> rfl

namespace Run

theorem storeSummary_state {σ : Type} (store : Store σ) (r : Run) (kind : Kind) (x : Summary)
    (s : σ) : ((r.storeSummary store kind x).run s).state = (store.persistSummary x s).2 :=
  congrArg Prod.snd (Attempt.outcome_ask _ _ _ (Action.ofOp (store.persistSummary x)) s)

theorem storeEntry_state {σ : Type} (store : Store σ) (r : Run) (id : SummaryId)
    (p : PendingEntry) (s : σ) :
    ((r.storeEntry store id p).run s).state = (store.persistEntry (p.attach id) s).2 :=
  congrArg Prod.snd (Attempt.outcome_ask _ _ _ (Action.ofOp (store.persistEntry (p.attach id))) s)

/-- The run has the measurements at hand. -/
structure Holds (ms : List Measurement) (s : Shared) : Prop where
  knows : s.Knows JustRead ms
  distinct : (ms.map (·.id)).Nodup

/-- What a run has at hand. -/
def Progress.atHand : Progress → List Measurement
  | .reading _ stream _ => stream.ready
  | .start | .storing _ _ _ | .filing _ _ _ _ _ _ _ | .finished _ => []

namespace Holds

variable {ms : List Measurement} {s : Shared}

theorem await (h : Holds ms s) : Holds ms s.await where
  knows := h.knows.await fun _ _ _ hn => hn.concat fun _ _ _ heq => nomatch heq
  distinct := h.distinct

theorem mono {ns : List Measurement} (h : Holds ms s) (hsub : ns.Sublist ms) : Holds ns s where
  knows := ⟨h.knows.coherent, fun n hn => h.knows.known n (hsub.subset hn)⟩
  distinct := h.distinct.sublist (hsub.map _)

theorem repair {m : Measurement} (h : Holds (m :: ms) s) :
    Holds ms (s.afterWrite m.withoutTask) := by
  obtain ⟨hfresh, hdistinct⟩ := List.nodup_cons.1 h.distinct
  refine ⟨⟨h.knows.coherent.repair (h.knows.known m List.mem_cons_self), fun n hn => ?_⟩, hdistinct⟩
  refine (h.knows.known n (List.mem_cons_of_mem _ hn)).concat fun before x after heq => ?_
  cases heq
  exact fun hid => hfresh (List.mem_map.2 ⟨n, hn, hid.symm⟩)

theorem observe {m : Measurement} (h : Holds (m :: ms) s) (r : Run) (t : Tally) :
    Holds ms (r.observe Shared.store t m s).state :=
  Shared.observe_induction (fun _ h => h.await) (fun _ h => h.mono (List.sublist_cons_self _ _))
    (fun _ h => h.repair) h r t

theorem fetch {ns : List Measurement} (h : Holds ns s) {page : Page} {q : Query}
    (hpage : page.records.Sublist (s.await.archive.listed q)) :
    Holds page.records (s.afterRead page.records) where
  knows :=
    { coherent := h.await.knows.coherent.read fun _ hm =>
        (Archive.find?_of_mem_listed (hpage.subset hm)).1
      known := fun _ hn =>
        ⟨s.await.history, page.records, [], rfl, hn, fun _ _ _ h => nomatch h⟩ }
  distinct := (s.await.archive.nodup_ids_listed q).sublist (hpage.map _)

/-- A call that writes no measurement. -/
theorem quiet {α : Type} (h : Holds ms s) {op : StoreOp Archive α}
    (hop : ∀ a, (op a).2.measurements = a.measurements) : Holds ms (Shared.ask op s).2 := by
  rw [Shared.ask_eq]
  exact ⟨⟨h.await.knows.coherent.congr (hop s.await.archive), h.await.knows.known⟩, h.distinct⟩

/-- **A step of a run writes what it has at hand**, and nothing else. -/
theorem step {p : Progress} (h : Holds p.atHand s) (r : Run) (unscheduled : List Window) :
    Holds (r.step Shared.store unscheduled p s).value.atHand
      (r.step Shared.store unscheduled p s).state := by
  -- Only a record that is observed is ever written. The other steps leave the run with nothing at
  -- hand, or with the page that they have just read.
  have hnil : Holds [] s := h.mono (List.nil_sublist _)
  cases p with
  | start =>
      exact h.mono (RecordStream.ready_sublist (.ofQuery r.query r.config.pageSize))
  | reading pages stream t =>
      cases hready : stream.ready with
      | cons m ms =>
          have hobserve : Holds (m :: ms) s := by
            rw [← hready]
            exact h
          rw [Run.step_observe hready]
          show Holds (stream.advance 1).ready (r.observe Shared.store t m s).state
          rw [RecordStream.ready_advance, hready]
          exact hobserve.observe r t
      | nil =>
          by_cases hover : pages = 0 ∨ stream.isOver = true
          · rw [Run.step_read hready hover]
            exact hnil
          · obtain ⟨hpages, hmore⟩ := not_or.1 hover
            obtain ⟨pages, rfl⟩ := Nat.exists_eq_succ_of_ne_zero hpages
            rw [Run.step_fetch hready (Bool.eq_false_iff.2 hmore), Action.bind_apply]
            unfold RecordStream.fetch
            rw [Action.bind_apply, Action.ofOp_apply]
            rcases Shared.query_cases stream.query stream.pageSize stream.cursor s with
              ⟨e, hquery⟩ | ⟨page, hpage, hquery⟩
            · rw [hquery]
              exact hnil.await
            · rw [hquery]
              exact (h.fetch hpage).mono (stream.withPage page).ready_sublist
  | storing t reports left =>
      cases left with
      | nil => exact hnil
      | cons e left =>
          obtain ⟨kind, a⟩ := e
          by_cases hzero : a.summary.recordCount = 0
          · rw [Run.step_skip hzero]
            exact hnil
          · have hstored : Holds [] ((r.storeSummary Shared.store kind a.summary).run s).state := by
              rw [r.storeSummary_state]
              have hkeeps : ∀ b, (Archive.addSummary a.summary b).2.measurements =
                b.measurements := fun _ => rfl
              exact hnil.quiet hkeeps
            rw [Run.step_summary hzero, Action.bind_apply]
            cases ((r.storeSummary Shared.store kind a.summary).run s).value <;> exact hstored
  | filing t reports kind a id pending left =>
      cases pending with
      | nil => exact hnil
      | cons p pending =>
          have hstored : Holds [] ((r.storeEntry Shared.store id p).run s).state := by
            rw [r.storeEntry_state]
            exact hnil.quiet (Archive.measurements_addEntry _)
          rw [Run.step_entry, Action.bind_apply]
          cases ((r.storeEntry Shared.store id p).run s).value <;> exact hstored
  | finished answer => exact hnil

end Holds

theorem coherent_execute (r : Run) (unscheduled : List Window) (a : Archive)
    (upcoming : List (List Change)) :
    let s := ((r.execute Shared.store unscheduled).perform (.ofArchive a upcoming)).state
    Coherent JustRead s.archive s.history := by
  intro s
  -- The invariant holds after any number of steps, and the run is some number of them.
  have hsteps : ∀ n p s, Holds (Progress.atHand p) s →
      Holds (r.proceed Shared.store unscheduled n p s).value.atHand
        (r.proceed Shared.store unscheduled n p s).state := by
    intro n
    induction n with
    | zero => exact fun p s h => h
    | succ n ih => exact fun p s h => ih _ _ (h.step r unscheduled)
  obtain ⟨n, hn⟩ := r.exists_proceed_eq_execute Shared.store unscheduled (.ofArchive a upcoming)
  have hstart : Holds (Progress.atHand .start) (.ofArchive a upcoming) :=
    ⟨⟨.nil JustRead a, fun n hn => absurd hn List.not_mem_nil⟩, .nil⟩
  have hend := hsteps n .start _ hstart
  rw [hn] at hend
  exact hend.knows.coherent

end Run

/-! ## Other clients

A client is free to keep what it has read, and to repair it at any time and more than once. So all
that is known is that a measurement was read (`WasRead`), and what the client wrote under the same
name since counts like a delivery. -/

/-- A call of a client that reads measurements, keeps them and repairs them later. -/
inductive ClientCall where
  | fetch (q : Query) (pageSize : Nat) (cursor : Option String)
  | look (id : MeasurementId)
  /-- Repair the measurement with this number among all that were read. -/
  | repair (i : Nat)

namespace ClientCall

variable {σ : Type}

/-- Make a call, with the measurements that were read before. -/
def perform (store : Store σ) (held : List Measurement) : ClientCall → Action σ (List Measurement)
  | fetch q pageSize cursor => do
    let answer ← Action.ofOp (store.query q pageSize cursor)
    return held ++ answer.toOption.toList.flatMap (·.records)
  | look id => do
    let answer ← Action.ofOp (store.measurement id)
    return held ++ answer.toOption.toList.flatMap Option.toList
  | repair i =>
    match held[i]? with
    | none => return held
    | some m => do
      let _ ← m.repairTask store
      return held

def performAll (store : Store σ) (calls : List ClientCall) : Action σ (List Measurement) :=
  calls.foldlM (perform store) []

end ClientCall

/-- The measurement was read. -/
def WasRead (history : List Incident) (n : Measurement) : Prop :=
  ∃ ms, .read ms ∈ history ∧ n ∈ ms

namespace ClientCall

variable {held : List Measurement} {s : Shared}

theorem knows_await (h : s.Knows WasRead held) : s.await.Knows WasRead held := by
  refine h.await ?_
  rintro history c n ⟨ms, hms, hn⟩
  exact ⟨ms, List.mem_append_left _ hms, hn⟩

theorem knows_repair (h : s.Knows WasRead held) {m : Measurement} (hm : m ∈ held) :
    (s.afterWrite m.withoutTask).Knows WasRead held := by
  refine ⟨h.coherent.repair (h.known m hm), fun n hn => ?_⟩
  obtain ⟨ms, hms, hn⟩ := h.known n hn
  exact ⟨ms, List.mem_append_left _ hms, hn⟩

theorem knows_read (h : s.Knows WasRead held) {ms : List Measurement}
    (hms : ∀ m ∈ ms, s.await.archive.measurements.find? m.id = some m) :
    (s.afterRead ms).Knows WasRead (held ++ ms) := by
  have hawait := knows_await h
  refine ⟨hawait.coherent.read hms, fun n hn => ?_⟩
  rcases List.mem_append.1 hn with hn | hn
  · obtain ⟨ns, hns, hn⟩ := hawait.known n hn
    exact ⟨ns, List.mem_append_left _ hns, hn⟩
  · exact ⟨ms, List.mem_append_right _ (List.mem_singleton_self _), hn⟩

/-- **A call of a client repairs what it has read**, and writes nothing else. -/
theorem knows_perform (h : s.Knows WasRead held) (call : ClientCall) :
    (call.perform Shared.store held s).state.Knows WasRead
      (call.perform Shared.store held s).value := by
  -- A client learns records from pages and look-ups only. What it repairs it has held before.
  cases call with
  | fetch q pageSize cursor =>
      rw [ClientCall.perform, Action.bind_apply, Action.ofOp_apply]
      rcases Shared.query_cases q pageSize cursor s with ⟨e, hquery⟩ | ⟨page, hpage, hquery⟩
      · rw [hquery]
        simpa [Except.toOption] using knows_await h
      · rw [hquery]
        simpa [Except.toOption] using
          knows_read h fun m hm => (Archive.find?_of_mem_listed (hpage.subset hm)).1
  | look id =>
      rw [ClientCall.perform, Action.bind_apply, Action.ofOp_apply, Shared.measurement_eq]
      simpa [Except.toOption] using knows_read h fun m hm => by
        have hm := Option.mem_toList.1 hm
        rwa [s.await.archive.named _ ((OrderedMap.find?_eq_some_iff _ _ _).1 hm)]
  | repair i =>
      rw [ClientCall.perform]
      cases hm : held[i]? with
      | none => exact h
      | some m =>
          exact Shared.repairTask_induction (m := m) (P := (·.Knows WasRead held))
            (R := (·.Knows WasRead held)) (fun _ h => knows_await h) (fun _ h => h)
            (fun _ h => knows_repair h (List.mem_of_getElem? hm)) h

theorem coherent_performAll (calls : List ClientCall) (a : Archive)
    (upcoming : List (List Change)) :
    let s := (performAll Shared.store calls (.ofArchive a upcoming)).state
    Coherent WasRead s.archive s.history := by
  have hcalls : ∀ (held : List Measurement) (s : Shared), s.Knows WasRead held →
      Coherent WasRead (calls.foldlM (perform Shared.store) held s).state.archive
        (calls.foldlM (perform Shared.store) held s).state.history := by
    induction calls with
    | nil => exact fun held s h => h.coherent
    | cons call calls ih => exact fun held s h => ih _ _ (knows_perform h call)
  exact hcalls [] _ ⟨.nil WasRead a, fun n hn => absurd hn List.not_mem_nil⟩

end ClientCall

/-! ## What a repair changes

Both invariants make the history coherent, and a coherent history says of each write which reading
it goes back to. If nothing else was written under that name in between, the stored measurement is
still the one that was read, but for its task. -/

/-- All that the program wrote are measurements which it had read, without their tasks. Each write
only cleared the task of what was stored, if all that had been `written?` under its name since
agrees with what was read but for tasks. -/
def WritesBack (written? : Incident → Option Measurement) (history : List Incident) : Prop :=
  ∀ pre before m after post, history = pre ++ .written before m after :: post →
    ∃ earlier ms later n, pre = earlier ++ .read ms :: later ∧ n ∈ ms ∧
      m = n.withoutTask ∧ after = before.insertMeasurement m ∧
      ((∀ x ∈ later.filterMap written?, x.id = n.id → x.SameButTask n) →
        ∃ stored, before.measurements.find? n.id = some stored ∧
          after = before.insertMeasurement stored.withoutTask)

theorem Coherent.writesBack {Q : List Incident → Measurement → Prop} {a : Archive}
    {history : List Incident} (h : Coherent Q a history)
    {written? : Incident → Option Measurement}
    (hQ : ∀ pre n, Q pre n → ∃ earlier ms later, pre = earlier ++ .read ms :: later ∧ n ∈ ms ∧
      ∀ x ∈ later.filterMap Incident.writing?, x.id = n.id → x ∈ later.filterMap written?) :
    WritesBack written? history := by
  intro pre before m after post hsplit
  obtain ⟨hremembers, hafter, n, hn, hm⟩ := h.repairs pre before m after post hsplit
  obtain ⟨earlier, ms, later, hpre, hmem, hlater⟩ := hQ pre n hn
  refine ⟨earlier, ms, later, n, hpre, hmem, hm, hafter, fun hagree => ?_⟩
  obtain ⟨stored, hstored, hsame⟩ := hremembers earlier ms later hpre n hmem fun x hx hid =>
    hagree x (hlater x hx hid) hid
  refine ⟨stored, hstored, ?_⟩
  unfold Measurement.SameButTask at hsame
  rw [hafter, hm, hsame]

/-- **A repair clears a task and changes nothing else**, unless something was written under the name
of the measurement since it was read. For a run this is what others delivered since it fetched the
page. For a client that keeps what it reads, it may also be what the client itself wrote back from
another reading. -/
theorem Shared.repairs_write_back (a : Archive) (upcoming : List (List Change)) :
    (∀ (r : Run) (unscheduled : List Window), WritesBack Incident.delivery?
      ((r.execute store unscheduled).perform (.ofArchive a upcoming)).state.history) ∧
      ∀ calls : List ClientCall, WritesBack Incident.writing?
        (ClientCall.performAll store calls (.ofArchive a upcoming)).state.history := by
  constructor
  · -- Since the page was read, the run has written nothing under this name: what was written there
    -- was delivered.
    intro r unscheduled
    refine (r.coherent_execute unscheduled a upcoming).writesBack fun pre n hn => ?_
    obtain ⟨earlier, ms, later, hpre, hmem, hlater⟩ := hn
    refine ⟨earlier, ms, later, hpre, hmem, fun x hx hid => ?_⟩
    obtain ⟨e, he, hx⟩ := List.mem_filterMap.1 hx
    refine List.mem_filterMap.2 ⟨e, he, ?_⟩
    cases e with
    | written before m after =>
        obtain rfl := Option.some.inj hx
        exact absurd hid (hlater before m after he)
    | changed c => cases c <;> exact hx
    | read ns => exact hx
  · intro calls
    refine (ClientCall.coherent_performAll calls a upcoming).writesBack fun pre n hn => ?_
    obtain ⟨ms, hms, hmem⟩ := hn
    obtain ⟨earlier, later, rfl⟩ := List.append_of_mem hms
    exact ⟨earlier, ms, later, rfl, hmem, fun x hx _ => hx⟩

/-! ## A delivery that is lost

The condition cannot be dropped. The store replaces whole measurements, so the repair of an old
reading undoes what was delivered since. -/

/-- A loop over a list that fits on one page reads this page and visits what is on it. -/
theorem Shared.forEach_outcome_of_onePage {α : Type} {q : Query} {pageSize : Nat} {s : Shared}
    {ms : List Measurement} (hq : q.limit = none) (h : s.await.archive.listed q = ms)
    (hfits : ms.length ≤ pageSize) (visit : α → Measurement → Action Shared α) (a : α) :
    ((RecordStream.ofQuery q pageSize).forEach store visit a).outcome s =
      ((((ms.foldlM visit a).outcome (s.afterRead ms)).1, none),
        ((ms.foldlM visit a).outcome (s.afterRead ms)).2) := by
  let r := RecordStream.ofQuery q pageSize
  have hready : r.ready = [] := by simp [r, RecordStream.ofQuery, RecordStream.ready, hq]
  have hmore : r.isOver = false := by
    simp [r, RecordStream.ofQuery, RecordStream.isOver, RecordStream.limitReached, hq]
  have hpage : Archive.pageFrom (s.await.archive.listed r.query) 0 r.pageSize = ⟨ms, none⟩ := by
    show Archive.pageFrom (s.await.archive.listed q) 0 (max pageSize 1) = _
    rw [h, Archive.pageFrom, List.drop_zero, List.take_of_length_le (by omega),
      if_neg (by omega)]
  have hfetch : r.fetch store s = ⟨.ok (r.withPage ⟨ms, none⟩), s.afterRead ms, []⟩ := by
    have hplace : 0 ≤ (s.await.archive.listed r.query).length := Nat.zero_le _
    exact (fetch_eq rfl hplace).trans (by rw [hpage])
  -- This page is the last one, so that nothing is asked for after the visits.
  have hlast : ∀ pages, (r.withPage ⟨ms, none⟩).forEachWithin store visit pages a = do
      let a ← ms.foldlM visit a
      return (a, none) := by
    intro pages
    unfold RecordStream.forEachWithin
    cases pages <;> simp [r, RecordStream.ofQuery, RecordStream.withPage, RecordStream.ready,
      RecordStream.advance, RecordStream.isOver, hq]
  obtain ⟨pages, hpages⟩ := s.exists_pageBound
  show (r.forEach store visit a).outcome s = _
  unfold RecordStream.forEach Action.outcome
  simp only [Action.bind_apply, Action.state_apply, hpages,
    RecordStream.forEachWithin_of_not_isOver hready pages hmore, hfetch, hlast]
  rfl

/-- A ping whose task is gone. -/
def Measurement.strayPing (success : Bool) : Measurement :=
  ⟨⟨"ping"⟩, .ping, .epoch, success, .empty, .empty, ⟨"phone"⟩, some ⟨"gone"⟩⟩

/-- **What is delivered while a run has a page may be lost.** The run reads a ping that succeeded;
one that failed is delivered under the same name; and the repair brings back the first. -/
theorem Run.repair_loses_delivery :
    ((ofFirstInstant.execute Shared.store []).perform
      (.ofArchive (Archive.ofOnePing.insertMeasurement (.strayPing true))
        [[], [.measurement (.strayPing false)]])).state.history.filterMap
      (fun
        | .written before m after => some
            ((before.measurements.find? m.id).map (·.success),
              (after.measurements.find? m.id).map (·.success))
        | .read _ | .changed _ => none) =
      [(some false, some true)] := by
  let start := Shared.ofArchive (Archive.ofOnePing.insertMeasurement (.strayPing true))
    [[], [.measurement (.strayPing false)]]
  have hlisted : start.await.archive.listed ofFirstInstant.query = [.strayPing true] := by
    rw [Archive.listed_eq_of_pairwise rfl (by decide +kernel)]
    decide +kernel
  have heach := Shared.forEach_outcome_of_onePage rfl hlisted
    (show 1 ≤ ofFirstInstant.config.pageSize by decide)
    (ofFirstInstant.observe Shared.store) .initial
  let visited := (List.foldlM (ofFirstInstant.observe Shared.store) .initial
    [Measurement.strayPing true]).outcome (start.afterRead [.strayPing true])
  have hcollect : (ofFirstInstant.collect Shared.store).outcome start =
      (.ok visited.1, visited.2) := by
    unfold collect
    rw [Attempt.outcome_bind_ok (Attempt.outcome_of _ _), heach]
    rfl
  show ((ofFirstInstant.execute Shared.store []).outcome start).2.history.filterMap _ = _
  unfold execute
  rw [Attempt.outcome_bind_ok (Attempt.outcome_log _ _ _), Attempt.outcome_bind_ok hcollect]
  decide +kernel

end NetAudit
