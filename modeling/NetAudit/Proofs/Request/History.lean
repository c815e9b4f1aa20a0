import NetAudit.Proofs.Request.Services
import NetAudit.Proofs.Run.Aftermath
import NetAudit.Proofs.Run.Reachable

/-!
# The history of an archive

An archive is filled, asked for something, written to, and used by requests, in any order. Whatever
happens, its results are only ever appended to, and every entry finds its summary; and a call that
fails leaves no trace. All of this is `Operation.performAll_keeps`: it goes through the operations
one by one, each of which keeps the archive reachable (`Operation.reachable_perform`) and extends
its results (`Operation.extends_perform`).
-/

namespace NetAudit

open Calendar (Instant)

/-! ## Operations

An operation is anything that can be asked of an archive from outside. It answers with an error of
the store or without one. -/

/-- Something that is done to an archive: a delivery, a call of its store, or a request. A request
comes with a queue and a notifier of any sort, in any state. -/
inductive Operation : Type 1 where
  | insertDevice (d : DeviceInfo)
  | insertTask (t : TaskInfo)
  | insertMeasurement (m : Measurement)
  | query (q : Query) (pageSize : Nat) (cursor : Option String)
  | measurement (id : MeasurementId)
  | device (id : DeviceId)
  | task (id : TaskId)
  | persistMeasurement (m : Measurement)
  | persistSummary (s : Summary)
  | persistEntry (e : Entry)
  | summary (id : SummaryId)
  | summaries (limit : Nat)
  | entries (limit : Nat)
  | request {κ ν : Type} (queue : JobQueue κ) (notifier : Notifier ν) (k : κ) (n : ν) (c : Config)
    (now : Instant) (name : String) (q : RunRequest)

namespace Operation

/-- The error that a call of a store ends with, if it fails, and the state after it. -/
def call {σ α : Type} (op : StoreOp σ α) (s : σ) : Option StoreError × σ :=
  match op s with
  | (.ok _, s) => (none, s)
  | (.error e, s) => (some e, s)

/-- The error of a store that stands behind the failure of a request, if it failed for one. -/
def storeError? : Ending (Except RunError RunResponse) → Option StoreError
  | .returned (.error e) => e.ofStore?
  | .returned (.ok _) | .panicked => none

/-- The error of the store that the operation ends with, if it does, and the archive after it. -/
def perform (a : Archive) : Operation → Option StoreError × Archive
  | insertDevice d => (none, a.insertDevice d)
  | insertTask t => (none, a.insertTask t)
  | insertMeasurement m => (none, a.insertMeasurement m)
  | query q pageSize cursor => call (Archive.store.query q pageSize cursor) a
  | measurement id => call (Archive.store.measurement id) a
  | device id => call (Archive.store.device id) a
  | task id => call (Archive.store.task id) a
  | persistMeasurement m => call (Archive.store.persistMeasurement m) a
  | persistSummary s => call (Archive.store.persistSummary s) a
  | persistEntry e => call (Archive.store.persistEntry e) a
  | summary id => call (Archive.store.summary id) a
  | summaries limit => call (Archive.store.summaries limit) a
  | entries limit => call (Archive.store.entries limit) a
  | request queue notifier k n c now name q =>
    let done := (q.handle (.apart Archive.store queue notifier) c now name).outcome ⟨a, k, n⟩
    (storeError? done.1, done.2.store)

/-- The archive after operations. -/
def performAll (a : Archive) (ops : List Operation) : Archive :=
  ops.foldl (fun a op => (op.perform a).2) a

end Operation

/-! ## Requests to an archive

A request leaves the archive as it was, or as a run leaves it. On an archive the store never fails,
so an error that a request answers with is none of the store. -/

/-- **A request changes an archive by its run, if at all**, and never ends with an error of it. -/
theorem RunRequest.handle_archive {κ ν : Type} (queue : JobQueue κ) (notifier : Notifier ν) (k : κ)
    (n : ν) (c : Config) (now : Instant) (name : String) (q : RunRequest) (a : Archive) :
    let done := (q.handle (.apart Archive.store queue notifier) c now name).outcome ⟨a, k, n⟩
    (done.2.store = a ∨ ∃ r : Run, done.2.store = r.leave a) ∧
      ∀ e, done.1 = .returned (.error e) → e.ofStore? = none := by
  by_cases hruns : ∃ r, q.Runs c now name r
  · obtain ⟨r, h⟩ := hruns
    obtain ⟨-, hdone⟩ := handle_apart Archive.store queue notifier ⟨a, k, n⟩ h
    rw [hdone _ (congrArg Prod.fst (r.execute_archive _ a))]
    refine ⟨.inr ⟨r, congrArg Prod.snd (r.execute_archive _ a)⟩, fun e he => ?_⟩
    obtain ⟨reason, rfl⟩ :=
      (q.present_failsOnly r _ notifier).error_of_outcome (Ending.returned.inj he)
    rfl
  -- A request that starts no run leaves the archive alone, and so does one that panics.
  · obtain ⟨answer, hanswer, hnothing⟩ := handle_of_not_runs (not_exists.1 hruns)
    rw [hnothing]
    refine ⟨.inl rfl, ?_⟩
    rcases hanswer with rfl | ⟨e, he, rfl⟩
    · rintro _ ⟨⟩
    · rintro _ ⟨⟩
      cases e with
      | query e | persistence what e => cases he
      | unsupported e | window e | tooManyIterations m max | notification reason => rfl

/-! ## What one operation does

The lemmas go through the operations. Most of them read only, and leave the archive as it was. -/

namespace Operation

variable (op : Operation) (a : Archive)

@[simp] theorem call_snd {σ α : Type} (op : StoreOp σ α) (s : σ) : (call op s).2 = (op s).2 := by
  unfold call
  rcases op s with ⟨_ | _, _⟩ <;> rfl

theorem exists_of_call {σ α : Type} {op : StoreOp σ α} {s : σ} {e : StoreError}
    (h : (call op s).1 = some e) : (op s).1 = .error e := by
  unfold call at h
  rcases hop : op s with ⟨e' | x, s'⟩
  · rw [hop] at h
    exact congrArg _ (Option.some.inj h)
  · rw [hop] at h
    cases h

/-- A request leaves the archive alone, or as its run leaves it. -/
theorem perform_request {κ ν : Type} (queue : JobQueue κ) (notifier : Notifier ν) (k : κ) (n : ν)
    (c : Config) (now : Instant) (name : String) (q : RunRequest) :
    ((request queue notifier k n c now name q).perform a).1 = none ∧
      (((request queue notifier k n c now name q).perform a).2 = a ∨
        ∃ r : Run, ((request queue notifier k n c now name q).perform a).2 = r.leave a) := by
  obtain ⟨hstore, herror⟩ := q.handle_archive queue notifier k n c now name a
  refine ⟨?_, hstore⟩
  show storeError? _ = none
  cases hanswer : ((q.handle (.apart Archive.store queue notifier) c now name).outcome
      ⟨a, k, n⟩).1 with
  | panicked => rfl
  | returned answer =>
      cases answer with
      | ok response => rfl
      | error e => exact herror e hanswer

/-- **What can come about goes on to.** -/
theorem reachable_perform {a : Archive} (h : a.Reachable) : (op.perform a).2.Reachable := by
  cases op with
  | insertDevice d => exact h.insertDevice d
  | insertTask t => exact h.insertTask t
  | insertMeasurement m => exact h.insertMeasurement m
  | query | measurement | device | task | summary | summaries | entries =>
      rw [perform, call_snd]
      exact h
  | persistMeasurement m =>
      rw [perform, call_snd]
      exact h.persistMeasurement m
  | persistSummary s =>
      rw [perform, call_snd]
      exact h.persistSummary s
  | persistEntry e =>
      rw [perform, call_snd]
      exact h.persistEntry e
  | request queue notifier k n c now name q =>
      obtain ⟨-, hsame | ⟨r, hleave⟩⟩ := perform_request a queue notifier k n c now name q
      · rwa [hsame]
      · rw [hleave, ← (r.perform_execute a []).2]
        exact h.run r []

end Operation

/-- The results of the one archive stand at the front of those of the other. -/
structure Archive.Extends (a b : Archive) : Prop where
  summaries : a.summaries <+: b.summaries
  entries : a.entries <+: b.entries

namespace Archive.Extends

theorem of_results {a b : Archive} (hsummaries : b.summaries = a.summaries)
    (hentries : b.entries = a.entries) : a.Extends b where
  summaries := hsummaries ▸ List.prefix_refl _
  entries := hentries ▸ List.prefix_refl _

theorem refl (a : Archive) : a.Extends a := of_results rfl rfl

theorem trans {a b c : Archive} (hab : a.Extends b) (hbc : b.Extends c) : a.Extends c :=
  ⟨hab.summaries.trans hbc.summaries, hab.entries.trans hbc.entries⟩

theorem leave (r : Run) (a : Archive) : a.Extends (r.leave a) where
  summaries := by
    rw [(r.filed_leave a).summaries]
    exact List.prefix_append _ _
  entries := by
    rw [(r.filed_leave a).entries]
    exact List.prefix_append _ _

end Archive.Extends

namespace Operation

variable (op : Operation) (a : Archive)

/-- **An operation appends results, and changes none.** -/
theorem extends_perform : a.Extends (op.perform a).2 := by
  -- Two operations write results, a summary or an entry, and a request does so through its run.
  cases op with
  | insertDevice d | insertTask t | insertMeasurement m => exact .of_results rfl rfl
  | query | measurement | device | task | summary | summaries | entries =>
      rw [perform, call_snd]
      exact .refl a
  | persistMeasurement m =>
      rw [perform, call_snd]
      show a.Extends (Archive.replaceMeasurement m a).2
      unfold Archive.replaceMeasurement
      split
      · exact .of_results rfl rfl
      · exact .refl a
  | persistSummary s =>
      rw [perform, call_snd]
      exact ⟨List.prefix_append _ _, List.prefix_refl _⟩
  | persistEntry e =>
      rw [perform, call_snd]
      show a.Extends (Archive.addEntry e a).2
      unfold Archive.addEntry
      split
      · exact ⟨List.prefix_refl _, List.prefix_append _ _⟩
      · exact .refl a
  | request queue notifier k n c now name q =>
      obtain ⟨-, hsame | ⟨r, hleave⟩⟩ := perform_request a queue notifier k n c now name q
      · rw [hsame]
        exact .refl a
      · rw [hleave]
        exact .leave r a

variable {op a}

/-- **An operation that ends with an error of the store has done nothing.** -/
theorem perform_of_error {e : StoreError} (h : (op.perform a).1 = some e) :
    (op.perform a).2 = a := by
  cases op with
  | insertDevice d | insertTask t | insertMeasurement m => cases h
  | query | measurement | device | task | summary | summaries | entries =>
      rw [perform, call_snd]
      rfl
  | persistMeasurement m =>
      -- The store looks for the measurement before it writes anything.
      have herror : (Archive.replaceMeasurement m a).1 = .error e := exists_of_call h
      rw [perform, call_snd]
      show (Archive.replaceMeasurement m a).2 = a
      unfold Archive.replaceMeasurement at herror ⊢
      split at herror
      · cases herror
      · next hmissing => rw [if_neg hmissing]
  | persistSummary s => cases exists_of_call h
  | persistEntry entry =>
      have herror : (Archive.addEntry entry a).1 = .error e := exists_of_call h
      rw [perform, call_snd]
      show (Archive.addEntry entry a).2 = a
      unfold Archive.addEntry at herror ⊢
      split at herror
      · cases herror
      · next hmissing => rw [if_neg hmissing]
  | request queue notifier k n c now name q =>
      -- On an archive no request ends with an error of the store.
      rw [(perform_request a queue notifier k n c now name q).1] at h
      cases h

/-! ## What operations in a row do

What each operation keeps is kept by all of them in a row. -/

theorem performAll_append (a : Archive) (earlier later : List Operation) :
    performAll a (earlier ++ later) = performAll (performAll a earlier) later :=
  List.foldl_append

theorem reachable_performAll (h : a.Reachable) (ops : List Operation) :
    (performAll a ops).Reachable := by
  induction ops generalizing a with
  | nil => exact h
  | cons op ops ih => exact ih (op.reachable_perform h)

theorem extends_performAll (a : Archive) (ops : List Operation) : a.Extends (performAll a ops) := by
  induction ops generalizing a with
  | nil => exact .refl a
  | cons op ops ih => exact (op.extends_perform a).trans (ih _)

/-- What holds of an archive that was empty before the operations. -/
structure Keeps (first : Nat) (ops : List Operation) : Prop where
  /-- The summary of every entry is found. -/
  rooted : ∀ row ∈ (performAll (.empty first) ops).entries,
    ∃ s, (Archive.store.summary row.value.summary (performAll (.empty first) ops)).1 = .ok (some s)
  /-- The results of any earlier state stand at the front, as they were. -/
  extended : ∀ earlier later, ops = earlier ++ later →
    (performAll (.empty first) earlier).summaries <+: (performAll (.empty first) ops).summaries ∧
      (performAll (.empty first) earlier).entries <+: (performAll (.empty first) ops).entries
  /-- Every measurement stands under its own name. -/
  named : ∀ id m, (performAll (.empty first) ops).measurements.find? id = some m → m.id = id
  /-- An operation that ended with an error of the store changed nothing. -/
  failed : ∀ earlier op later, ops = earlier ++ op :: later →
    ∀ e, (op.perform (performAll (.empty first) earlier)).1 = some e →
      performAll (.empty first) (earlier ++ [op]) = performAll (.empty first) earlier

/-- **Whatever is done to an archive, its results stay**, and every entry has its summary. -/
theorem performAll_keeps (first : Nat) (ops : List Operation) : Keeps first ops where
  rooted row hrow := by
    have hsummary := (reachable_performAll (.empty first) ops).rooted row hrow
    obtain ⟨s, hs⟩ := Option.isSome_iff_exists.1 hsummary
    exact ⟨s, congrArg _ hs⟩
  extended := by
    rintro earlier later rfl
    rw [performAll_append]
    obtain ⟨hsummaries, hentries⟩ := extends_performAll (performAll (.empty first) earlier) later
    exact ⟨hsummaries, hentries⟩
  named id m hm :=
    (performAll (.empty first) ops).named _ ((OrderedMap.find?_eq_some_iff _ _ _).1 hm)
  failed earlier op later _ e he := by
    rw [performAll_append]
    exact perform_of_error he

end Operation

end NetAudit
