import NetAudit.Run.Followups

/-!
# Requests

A request names a window and how many days it is about, and says how the results are wanted. It is
answered by a run over the first day; the other days are left to a queue. `handle` is the whole of
it: the window, the limit on the number of days, the follow-up jobs, the run and the presentation,
in this order. Only the window can panic, so a request that panics has done nothing yet.
-/

namespace NetAudit

open Calendar (Instant)

/-- How a caller wants the results. -/
inductive Presentation where
  | report
  | notification
deriving DecidableEq, Repr

/-- What a caller asks for. -/
structure RunRequest where
  start : Option String := none
  stop : Option String := none
  /-- The number of days. -/
  iterations : Nat := 1
  /-- The number of records that are taken at most. -/
  limit : Option Nat := none
  presentation : Presentation := .report
  /-- The caller works off a queue and does not look at results. -/
  isWorker : Bool := false
deriving DecidableEq, Repr

/-- The window of a request. -/
def RunRequest.window? (q : RunRequest) (now : Instant) : Ending (Except WindowError Window) :=
  Window.ofBounds? q.start q.stop now

/-- What a caller gets. -/
inductive RunResponse where
  | acknowledged
  | report (r : Report)
  | notified (r : Report)
deriving DecidableEq

/-- The report in a response. -/
def RunResponse.report? : RunResponse → Option Report
  | acknowledged => none
  | report r | notified r => some r

/-- Delivers messages. -/
structure Notifier (σ : Type) where
  send : Notification → Action σ (Except NotifyError Unit)

/-- All that a request needs of the world. -/
structure Services (σ : Type) where
  store : Store σ
  queue : JobQueue σ
  notifier : Notifier σ

/-- The message that holds a report. -/
def Notification.ofReport (c : Config) (r : Report) : Except RunError Notification :=
  match c.sender, c.recipient with
  | none, _ => .error (.notification "no sender configured")
  | some _, none => .error (.notification "no recipient configured")
  | some sender, some recipient => .ok ⟨sender, recipient, c.subject, r.text⟩

namespace RunRequest

variable {σ : Type}

/-- The run that a request asks for, if its window makes sense. -/
def run? (q : RunRequest) (c : Config) (now : Instant) (name : String) :
    Ending (Except RunError Run) := do
  match ← q.window? now with
  | .ok window => return .ok { name, window, startedAt := now, limit := q.limit, config := c }
  | .error e => return .error (.window e)

/-- Refuse a request for too many days. -/
def checkIterations (q : RunRequest) (r : Run) : Attempt σ Unit := do
  if r.config.maxIterations < q.iterations then
    Attempt.log (some r.context) (.requestRejected q.iterations r.config.maxIterations)
    Attempt.fail (.tooManyIterations q.iterations r.config.maxIterations)

/-- Send a report to the one who is to be told. -/
def notify (notifier : Notifier σ) (r : Run) (report : Report) : Attempt σ Unit := do
  let message ← Attempt.ofExcept (Notification.ofReport r.config report)
  Attempt.ask (some r.context) .notificationFailed (fun e => .notification e.message)
    (notifier.send message)
  Attempt.log (some r.context) (.notificationSent message.recipient)

/-- Hand out a report as it is wanted. -/
def present (notifier : Notifier σ) (q : RunRequest) (r : Run) (report : Report) :
    Attempt σ RunResponse := do
  if q.isWorker then return .acknowledged
  match q.presentation with
  | .report => return .report report
  | .notification =>
    notify notifier r report
    return .notified report

/-- Answer a request that asks for a run, or for none that makes sense. -/
def answer (services : Services σ) (q : RunRequest) (run : Except RunError Run) :
    Attempt σ RunResponse := do
  let r ← Attempt.ofExcept run
  q.checkIterations r
  let schedule ← Attempt.of (r.schedule services.queue q.iterations)
  let report ← r.execute services.store schedule.refused
  q.present services.notifier r report

/-- Answer a request at the present instant with a run of a given name. -/
def handle (services : Services σ) (c : Config) (now : Instant) (name : String) (q : RunRequest) :
    Action σ (Ending (Except RunError RunResponse)) :=
  match q.run? c now name with
  | .returned run => .returned <$> (q.answer services run).run
  | .panicked => pure .panicked

end RunRequest

end NetAudit
