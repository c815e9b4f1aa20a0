import NetAudit.Proofs.Request.Services

/-!
# What a request leaves behind

A request that is turned down leaves everything as it was, and so does one that panics. Any other
offers its jobs and writes its results, and this in the same way however the report is wanted. Only
then, and only if the run succeeded, may a message be sent; that it is not delivered undoes nothing.
All of this is `RunRequest.handle_answers`, for any store, queue and notifier.

A request can go eight ways, which `Setting.Course` lists with what each of them answers and leaves.
-/

namespace NetAudit

open Calendar (Instant)

variable {σ κ ν : Type}

/-- The notifier with notes of all messages that it is given, and of whether it delivers them. -/
def Notifier.noting (notifier : Notifier ν) : Notifier (ν × List (Notification × Bool)) where
  send message := fun n =>
    let done := notifier.send message n.1
    ⟨done.value, (done.state, n.2 ++ [(message, done.value.isOk)]), done.log⟩

theorem Notifier.noting_outcome {notifier : Notifier ν} {message : Notification} {n n' : ν}
    {answer : Except NotifyError Unit} (h : (notifier.send message).outcome n = (answer, n')) :
    (notifier.noting.send message).outcome (n, []) = (answer, n', [(message, answer.isOk)]) := by
  have hvalue : (notifier.send message n).value = answer := congrArg Prod.fst h
  have hstate : (notifier.send message n).state = n' := congrArg Prod.snd h
  rw [← hvalue, ← hstate]
  rfl

/-! ## The present world

A request is made in some state of the services, at some time. All calls of the queue and of the
notifier are noted, so that what was offered and what was sent can be told afterwards. -/

/-- What a request finds: services with their states, a configuration, the present instant, and the
name for its run. -/
structure Setting (σ κ ν : Type) where
  store : Store σ
  queue : JobQueue κ
  notifier : Notifier ν
  world : World σ κ ν
  config : Config
  now : Instant
  name : String

namespace Setting

/-- A world with notes of the jobs that were offered and of the messages that were sent. -/
abbrev Noted (σ κ ν : Type) := World σ (κ × List (Job × Bool)) (ν × List (Notification × Bool))

variable (x : Setting σ κ ν) (q : RunRequest)

/-- The world without notes. -/
def start : Noted σ κ ν := ⟨x.world.store, (x.world.queue, []), (x.world.notifier, [])⟩

/-- What a request is answered, and the world after it, with notes. -/
def answer : Ending (Except RunError RunResponse) × Noted σ κ ν :=
  (q.handle (.apart x.store x.queue.noting x.notifier.noting) x.config x.now x.name).outcome x.start

/-- The request is accepted, and asks for the run. -/
def Runs (r : Run) : Prop := q.Runs x.config x.now x.name r

/-- What becomes of the later days, on the queue alone. -/
def schedule (r : Run) : Schedule × κ × List (Job × Bool) :=
  (r.schedule x.queue.noting q.iterations).outcome (x.world.queue, [])

/-- What becomes of the run, on the store alone. -/
def run (r : Run) : Except RunError Report × σ :=
  (r.execute x.store (x.schedule q r).1.refused).outcome x.world.store

/-- The run of the request succeeds, with the report. -/
def Reports (rep : Report) : Prop := ∃ r, x.Runs q r ∧ (x.run q r).1 = .ok rep

/-! ## The ways of a request

Each way has its condition, its answer, and what it leaves. That there is no other way is
`Setting.course`. -/

/-- The world after the jobs were offered and the run was made. -/
def left (r : Run) (n : ν × List (Notification × Bool)) : Noted σ κ ν :=
  ⟨(x.run q r).2, (x.schedule q r).2, n⟩

/-- What a request may be answered, and the world after it. -/
inductive Course : Ending (Except RunError RunResponse) → Noted σ κ ν → Prop
  | panicked (h : ∀ r, ¬x.Runs q r) : Course .panicked x.start
  | refused {e : RunError} (h : ∀ r, ¬x.Runs q r) (he : e.isRefusal = true) :
    Course (.returned (.error e)) x.start
  | failed {r : Run} {e : RunError} (h : x.Runs q r) (hrun : (x.run q r).1 = .error e) :
    Course (.returned (.error e)) (x.left q r (x.world.notifier, []))
  | acknowledged {r : Run} {rep : Report} (h : x.Runs q r) (hrun : (x.run q r).1 = .ok rep)
    (hworker : q.isWorker = true) :
    Course (.returned (.ok .acknowledged)) (x.left q r (x.world.notifier, []))
  | reported {r : Run} {rep : Report} (h : x.Runs q r) (hrun : (x.run q r).1 = .ok rep)
    (hworker : q.isWorker = false) (hshow : q.presentation = .report) :
    Course (.returned (.ok (.report rep))) (x.left q r (x.world.notifier, []))
  | unaddressed {r : Run} {rep : Report} {reason : String} (h : x.Runs q r)
    (hrun : (x.run q r).1 = .ok rep) (hworker : q.isWorker = false)
    (hshow : q.presentation = .notification)
    (hmissing : x.config.sender = none ∨ x.config.recipient = none) :
    Course (.returned (.error (.notification reason))) (x.left q r (x.world.notifier, []))
  | delivered {r : Run} {rep : Report} {message : Notification} {n : ν} (h : x.Runs q r)
    (hrun : (x.run q r).1 = .ok rep) (hworker : q.isWorker = false)
    (hshow : q.presentation = .notification)
    (hmessage : Notification.ofReport x.config rep = .ok message) :
    Course (.returned (.ok (.notified rep))) (x.left q r (n, [(message, true)]))
  | undelivered {r : Run} {rep : Report} {message : Notification} {n : ν} {reason : String}
    (h : x.Runs q r) (hrun : (x.run q r).1 = .ok rep) (hworker : q.isWorker = false)
    (hshow : q.presentation = .notification)
    (hmessage : Notification.ofReport x.config rep = .ok message) :
    Course (.returned (.error (.notification reason))) (x.left q r (n, [(message, false)]))

variable {x q}

/-- After a run that succeeded, the presentation decides. -/
theorem course_of_present {r : Run} {rep : Report} (h : x.Runs q r)
    (hrun : (x.run q r).1 = .ok rep) :
    let done := (q.present x.notifier.noting r rep).outcome (x.world.notifier, [])
    x.Course q (.returned done.1) (x.left q r done.2) := by
  have hconfig : r.config = x.config := h.config_eq
  cases hworker : q.isWorker with
  | true =>
      rw [RunRequest.present_of_worker hworker]
      exact .acknowledged h hrun hworker
  | false =>
      cases hshow : q.presentation with
      | report =>
          rw [RunRequest.present_of_report hworker hshow]
          exact .reported h hrun hworker hshow
      | notification =>
          -- A message needs both addresses, and is then delivered or not.
          cases hmessage : Notification.ofReport r.config rep with
          | error e =>
              rw [RunRequest.present_of_missing hworker hshow _ hmessage]
              rw [hconfig] at hmessage
              obtain ⟨⟨reason, rfl⟩, hmissing⟩ := Notification.missing_of_ofReport hmessage
              exact .unaddressed h hrun hworker hshow hmissing
          | ok message =>
              have haddressed : Notification.ofReport x.config rep = .ok message := by
                rw [← hconfig, hmessage]
              rcases hsend : (x.notifier.send message).outcome x.world.notifier with ⟨e | _, n⟩
              · rw [RunRequest.present_of_undelivered hworker hshow _ hmessage
                  (Notifier.noting_outcome hsend)]
                exact .undelivered h hrun hworker hshow haddressed
              · rw [RunRequest.present_of_delivered hworker hshow _ hmessage
                  (Notifier.noting_outcome hsend)]
                exact .delivered h hrun hworker hshow haddressed

variable (x q)

/-- **A request goes one of these ways.** -/
theorem course : x.Course q (x.answer q).1 (x.answer q).2 := by
  by_cases hruns : ∃ r, x.Runs q r
  · obtain ⟨r, h⟩ := hruns
    obtain ⟨hfailed, hdone⟩ :=
      RunRequest.handle_apart x.store x.queue.noting x.notifier.noting x.start h
    unfold answer
    cases hrun : (x.run q r).1 with
    | error e =>
        rw [hfailed e hrun]
        exact .failed h hrun
    | ok rep =>
        rw [hdone rep hrun]
        exact course_of_present h hrun
  · obtain ⟨a, ha, hnothing⟩ := RunRequest.handle_of_not_runs (not_exists.1 hruns)
    unfold answer
    rw [hnothing]
    rcases ha with rfl | ⟨e, he, rfl⟩
    · exact .panicked (not_exists.1 hruns)
    · exact .refused (not_exists.1 hruns) he

/-! ## Reports

There is a report only if the request is accepted and its run succeeds. -/

section Reports

variable {x q} {r : Run} {rep : Report}

theorem reports_iff (h : x.Runs q r) (hrun : (x.run q r).1 = .ok rep) (rep' : Report) :
    x.Reports q rep' ↔ rep' = rep := by
  constructor
  · rintro ⟨r', h', hrun'⟩
    rw [h'.eq h, hrun] at hrun'
    exact (Except.ok.inj hrun').symm
  · rintro rfl
    exact ⟨r, h, hrun⟩

theorem not_reports_of_error {e : RunError} (h : x.Runs q r) (hrun : (x.run q r).1 = .error e)
    (rep' : Report) : ¬x.Reports q rep' := by
  rintro ⟨r', h', hrun'⟩
  rw [h'.eq h, hrun] at hrun'
  cases hrun'

theorem not_reports_of_not_runs (h : ∀ r, ¬x.Runs q r) (rep' : Report) : ¬x.Reports q rep' :=
  fun ⟨r, hr, _⟩ => h r hr

/-- A run that fails neither turns the request down nor fails to deliver a message. -/
theorem failure_of_run {e : RunError} (hrun : (x.run q r).1 = .error e) :
    e.isRefusal = false ∧ ∀ reason, e ≠ .notification reason := by
  have hstore := (r.execute_failsOnly x.store _).error_of_outcome hrun
  cases e with
  | query e | persistence what e => exact ⟨rfl, fun _ heq => nomatch heq⟩
  | unsupported e | window e | tooManyIterations n max | notification reason => cases hstore

end Reports

/-! ## What is promised

What is promised of an answer is read off the ways of a request, one promise at a time. A way that a
promise does not speak of is ruled out by its condition. -/

/-- The request is answered `a`, and leaves the world `w`. -/
structure Answers (a : Ending (Except RunError RunResponse)) (w : Noted σ κ ν) : Prop where
  /-- A request panics on the first day of the calendar, and on that day only. -/
  panics : a = .panicked ↔ x.now.second < Calendar.firstSecond + 86400
  /-- A request that panics leaves everything as it was. -/
  broken : a = .panicked → w = x.start
  /-- A request that is turned down leaves everything as it was. -/
  refused : ∀ e, a = .returned (.error e) → e.isRefusal = true → w = x.start
  /-- However the report is wanted, the store and the queue are left the same, and the same jobs are
  offered. -/
  alike : ∀ presentation isWorker,
    (x.answer { q with presentation, isWorker }).2.store = w.store ∧
      (x.answer { q with presentation, isWorker }).2.queue = w.queue
  /-- The store is left as by the run and the queue as by the schedule, whatever becomes of the
  report. -/
  kept : ∀ r, x.Runs q r → w.store = (x.run q r).2 ∧ w.queue = (x.schedule q r).2
  once : w.notifier.2.length ≤ 1
  called : w.notifier.2 ≠ [] ↔ (∃ rep, x.Reports q rep) ∧ q.isWorker = false ∧
    q.presentation = .notification ∧ x.config.sender ≠ none ∧ x.config.recipient ≠ none
  message : ∀ note ∈ w.notifier.2, ∃ rep, x.Reports q rep ∧ note.1.body = rep.text ∧
    note.1.subject = x.config.subject ∧ x.config.sender = some note.1.sender ∧
      x.config.recipient = some note.1.recipient
  notified : ∀ rep, a = .returned (.ok (.notified rep)) ↔
    x.Reports q rep ∧ ∃ message, w.notifier.2 = [(message, true)]
  acknowledged : a = .returned (.ok .acknowledged) ↔ q.isWorker = true ∧ ∃ rep, x.Reports q rep
  reported : ∀ rep, a = .returned (.ok (.report rep)) ↔
    x.Reports q rep ∧ q.isWorker = false ∧ q.presentation = .report
  /-- A missing address and a message that is not delivered are failures. -/
  undelivered : (∃ reason, a = .returned (.error (.notification reason))) ↔
    (∃ rep, x.Reports q rep) ∧ q.isWorker = false ∧ q.presentation = .notification ∧
      (x.config.sender = none ∨ x.config.recipient = none ∨
        ∃ message, w.notifier.2 = [(message, false)])

variable {x q} {a : Ending (Except RunError RunResponse)} {w : Noted σ κ ν}

namespace Course

theorem eq_start_of_panicked (h : x.Course q a w) : a = .panicked → w = x.start := by
  cases h with
  | panicked => exact fun _ => rfl
  | refused | failed | acknowledged | reported | unaddressed | delivered | undelivered => rintro ⟨⟩

theorem eq_start_of_refused (h : x.Course q a w) :
    ∀ e, a = .returned (.error e) → e.isRefusal = true → w = x.start := by
  cases h with
  | panicked => rintro _ ⟨⟩
  | refused => exact fun _ _ _ => rfl
  | failed _ hrun =>
      rintro _ ⟨⟩ he
      rw [(failure_of_run hrun).1] at he
      cases he
  | acknowledged | reported | delivered => rintro _ ⟨⟩
  | unaddressed | undelivered => rintro _ ⟨⟩ ⟨⟩

theorem eq_start (h : x.Course q a w) (hruns : ∀ r, ¬x.Runs q r) : w = x.start := by
  cases h with
  | panicked | refused => rfl
  | failed hr | acknowledged hr | reported hr | unaddressed hr | delivered hr | undelivered hr =>
      exact absurd hr (hruns _)

theorem kept (h : x.Course q a w) {r : Run} (hruns : x.Runs q r) :
    w.store = (x.run q r).2 ∧ w.queue = (x.schedule q r).2 := by
  cases h with
  | panicked hnone | refused hnone => exact absurd hruns (hnone r)
  | failed hr | acknowledged hr | reported hr | unaddressed hr | delivered hr | undelivered hr =>
      rw [hruns.eq hr]
      exact ⟨rfl, rfl⟩

/-- Neither the run nor the schedule looks at how the report is wanted. -/
theorem alike (h : x.Course q a w) {p : RunRequest}
    {b : Ending (Except RunError RunResponse)} {v : Noted σ κ ν} (hp : x.Course p b v)
    (hruns : x.Runs p = x.Runs q) (hiterations : p.iterations = q.iterations) :
    v.store = w.store ∧ v.queue = w.queue := by
  by_cases hr : ∃ r, x.Runs q r
  · obtain ⟨r, hr⟩ := hr
    obtain ⟨hstore, hqueue⟩ := h.kept hr
    obtain ⟨hstore', hqueue'⟩ := hp.kept (hruns ▸ hr)
    have hschedule : x.schedule p r = x.schedule q r := by
      unfold schedule
      rw [hiterations]
    have hrun : x.run p r = x.run q r := by
      unfold run
      rw [hschedule]
    exact ⟨by rw [hstore', hrun, hstore], by rw [hqueue', hschedule, hqueue]⟩
  · rw [h.eq_start (not_exists.1 hr), hp.eq_start (hruns ▸ not_exists.1 hr)]
    exact ⟨rfl, rfl⟩

theorem once (h : x.Course q a w) : w.notifier.2.length ≤ 1 := by
  cases h <;> simp [start, left]

theorem called (h : x.Course q a w) :
    w.notifier.2 ≠ [] ↔ (∃ rep, x.Reports q rep) ∧ q.isWorker = false ∧
      q.presentation = .notification ∧ x.config.sender ≠ none ∧ x.config.recipient ≠ none := by
  cases h with
  | panicked hnone | refused hnone => simp [start, not_reports_of_not_runs hnone]
  | failed hr hrun => simp [left, not_reports_of_error hr hrun]
  | acknowledged _ _ hworker => simp [left, hworker]
  | reported _ _ _ hshow => simp [left, hshow]
  | unaddressed _ _ _ _ hmissing =>
      rcases hmissing with hsender | hrecipient
      · simp [left, hsender]
      · simp [left, hrecipient]
  | delivered hr hrun hworker hshow hmessage | undelivered hr hrun hworker hshow hmessage =>
      obtain ⟨hsender, hrecipient, -, -⟩ := Notification.ofReport_eq_ok_iff.1 hmessage
      simp [left, reports_iff hr hrun, hworker, hshow, hsender, hrecipient]

theorem message (h : x.Course q a w) {note : Notification × Bool} (hnote : note ∈ w.notifier.2) :
    ∃ rep, x.Reports q rep ∧ Notification.ofReport x.config rep = .ok note.1 := by
  cases h with
  | panicked | refused | failed | acknowledged | reported | unaddressed =>
      exact absurd hnote List.not_mem_nil
  | delivered hr hrun hworker hshow hmessage | undelivered hr hrun hworker hshow hmessage =>
      rw [List.mem_singleton.1 hnote]
      exact ⟨_, ⟨_, hr, hrun⟩, hmessage⟩

theorem notified (h : x.Course q a w) (rep : Report) :
    a = .returned (.ok (.notified rep)) ↔
      x.Reports q rep ∧ ∃ message, w.notifier.2 = [(message, true)] := by
  cases h with
  | panicked | refused | failed | acknowledged | reported | unaddressed | undelivered =>
      simp [start, left]
  | delivered hr hrun => simp [left, reports_iff hr hrun, eq_comm]

theorem acknowledged_iff (h : x.Course q a w) :
    a = .returned (.ok .acknowledged) ↔ q.isWorker = true ∧ ∃ rep, x.Reports q rep := by
  cases h with
  | panicked hnone | refused hnone => simp [not_reports_of_not_runs hnone]
  | failed hr hrun => simp [not_reports_of_error hr hrun]
  | acknowledged hr hrun hworker => simp [reports_iff hr hrun, hworker]
  | reported _ _ hworker | unaddressed _ _ hworker | delivered _ _ hworker
  | undelivered _ _ hworker => simp [hworker]

theorem reported_iff (h : x.Course q a w) (rep : Report) :
    a = .returned (.ok (.report rep)) ↔
      x.Reports q rep ∧ q.isWorker = false ∧ q.presentation = .report := by
  cases h with
  | panicked hnone | refused hnone => simp [not_reports_of_not_runs hnone]
  | failed hr hrun => simp [not_reports_of_error hr hrun]
  | acknowledged _ _ hworker => simp [hworker]
  | reported hr hrun hworker hshow => simp [reports_iff hr hrun, hworker, hshow, eq_comm]
  | unaddressed _ _ _ hshow | delivered _ _ _ hshow | undelivered _ _ _ hshow => simp [hshow]

theorem undelivered_iff (h : x.Course q a w) :
    (∃ reason, a = .returned (.error (.notification reason))) ↔
      (∃ rep, x.Reports q rep) ∧ q.isWorker = false ∧ q.presentation = .notification ∧
        (x.config.sender = none ∨ x.config.recipient = none ∨
          ∃ message, w.notifier.2 = [(message, false)]) := by
  cases h with
  | panicked hnone => simp [not_reports_of_not_runs hnone]
  | @refused e hnone he =>
      have hother : ∀ reason, e ≠ .notification reason := by
        rintro reason rfl
        cases he
      simp [hother, not_reports_of_not_runs hnone]
  | failed hr hrun => simp [(failure_of_run hrun).2, not_reports_of_error hr hrun]
  | acknowledged _ _ hworker => simp [hworker]
  | reported _ _ _ hshow => simp [hshow]
  | unaddressed hr hrun hworker hshow hmissing =>
      simp only [reports_iff hr hrun, hworker, hshow]
      simpa [or_assoc] using hmissing.imp_right .inl
  | delivered _ _ _ _ hmessage =>
      obtain ⟨hsender, hrecipient, -, -⟩ := Notification.ofReport_eq_ok_iff.1 hmessage
      simp [left, hsender, hrecipient]
  | undelivered hr hrun hworker hshow => simp [left, reports_iff hr hrun, hworker, hshow]

end Course

end Setting

/-- **Whatever becomes of its report, a request does the same work**; and it tells of it at most
once, as it is wanted. -/
theorem RunRequest.handle_answers (x : Setting σ κ ν) (q : RunRequest) :
    x.Answers q (x.answer q).1 (x.answer q).2 where
  panics := RunRequest.handle_panicked_iff _ _
  broken := (x.course q).eq_start_of_panicked
  refused := (x.course q).eq_start_of_refused
  alike _ _ := (x.course q).alike (x.course _) rfl rfl
  kept _ := (x.course q).kept
  once := (x.course q).once
  called := (x.course q).called
  message note hnote := by
    obtain ⟨rep, hrep, hmessage⟩ := (x.course q).message hnote
    obtain ⟨hsender, hrecipient, hsubject, hbody⟩ := Notification.ofReport_eq_ok_iff.1 hmessage
    exact ⟨rep, hrep, hbody, hsubject, hsender, hrecipient⟩
  notified := (x.course q).notified
  acknowledged := (x.course q).acknowledged_iff
  reported := (x.course q).reported_iff
  undelivered := (x.course q).undelivered_iff

end NetAudit
