import NetAudit.Window

/-!
# Jobs and notifications

What a run hands to others: follow-up windows for a queue of jobs, and a report for whoever wants to
be told. Both may refuse.
-/

namespace NetAudit

open Calendar (Instant)

/-- A run that is put off. -/
structure Job where
  windowStart : Instant
  windowEnd : Instant
  remainingIterations : Nat
deriving DecidableEq

namespace Job

/-- The job of one run over a window. -/
def ofWindow (w : Window) : Job := ⟨w.start, w.stop, 1⟩

/-- The window of a job. -/
def window (j : Job) : Window := ⟨j.windowStart, j.windowEnd⟩

end Job

/-- The name of the queue to which jobs go. -/
def queueName : String := "validation"

/-- Why a queue does not take a job. -/
inductive QueueError where
  | rejected (queue reason : String)
  | unavailable (reason : String)
deriving DecidableEq, Repr

/-- The wording of an error. -/
def QueueError.message : QueueError → String
  | rejected queue reason => "queue " ++ queue ++ " rejected job: " ++ reason
  | unavailable reason => "queue unavailable: " ++ reason

/-- A message to someone. -/
structure Notification where
  sender : String
  recipient : String
  subject : String
  body : String
deriving DecidableEq, Repr

/-- Why a message is not delivered. -/
structure NotifyError where
  message : String
deriving DecidableEq, Repr

end NetAudit
