import NetAudit.Log.Action
import NetAudit.Run.Execute

/-!
# Follow-up runs

A request may ask for more than one day. The days after the first become jobs for a queue, each a
day later than the one before. A job that the queue refuses is reported, and the days after it are
offered all the same; only the end of the calendar ends the series.
-/

namespace NetAudit

/-- Takes jobs. -/
structure JobQueue (σ : Type) where
  enqueue : Job → Action σ (Except QueueError Unit)

/-- What became of the follow-up windows. -/
structure Schedule where
  /-- The number of windows that the queue took. -/
  accepted : Nat
  /-- The windows that it did not take, in their order. -/
  refused : List Window
deriving DecidableEq

namespace Schedule

/-- No window was offered. -/
def empty : Schedule := ⟨0, []⟩

/-- The schedule with a window before all others. -/
def enter (s : Schedule) (w : Window) (taken : Bool) : Schedule :=
  if taken then { s with accepted := s.accepted + 1 } else { s with refused := w :: s.refused }

/-- The schedule with its windows in the opposite order. -/
def reverse (s : Schedule) : Schedule := { s with refused := s.refused.reverse }

end Schedule

namespace Run

variable {σ : Type}

/-- Offer a window to the queue, and say whether it was taken. -/
def offer (queue : JobQueue σ) (r : Run) (w : Window) : Action σ Bool := do
  match ← queue.enqueue (.ofWindow w) with
  | .ok () =>
    Action.log (some r.context) (.jobScheduled w)
    return true
  | .error e =>
    Action.log (some r.context) (.jobRefused w e)
    return false

/-- Offer the window `day` days after that of the run, if the calendar has it, and enter it before
those of the days between. -/
def offerDay (queue : JobQueue σ) (r : Run) (day : Nat) (s : Schedule) :
    Action σ (Option Schedule) := do
  match r.window.addDays? day with
  | .error e =>
    Action.log (some r.context) (.fanoutTruncated day e)
    return none
  | .ok w => return some (s.enter w (← offer queue r w))

/-- Offer the windows of the days after the first of `iterations`. -/
def schedule (queue : JobQueue σ) (r : Run) (iterations : Nat) : Action σ Schedule := do
  if iterations ≤ 1 then return .empty
  Action.log (some r.context) (.fanoutStarted iterations)
  return (← Action.steps (offerDay queue r) (iterations - 1) 1 .empty).reverse

end Run

end NetAudit
