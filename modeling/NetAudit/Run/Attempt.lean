import NetAudit.Log.Action
import NetAudit.Run.Error

/-!
# Attempts

An `Attempt σ α` is an action that may fail: it works on a state, writes a log and gives an answer
or the reason why there is none. What was done before a failure stays done.
-/

namespace NetAudit

/-- Something that is done to a state, writes a log and may fail. -/
abbrev Attempt (σ α : Type) := ExceptT RunError (Action σ) α

namespace Attempt

variable {σ α : Type}

/-- An action that does not fail. -/
def of (x : Action σ α) : Attempt σ α := ExceptT.lift x

/-- Write an entry to the log. -/
def log (context : Option LogContext) (event : Event) : Attempt σ Unit :=
  of (Action.log context event)

/-- Fail. -/
def fail (e : RunError) : Attempt σ α := ExceptT.mk (pure (.error e))

/-- A failure or an answer. -/
def ofExcept (x : Except RunError α) : Attempt σ α := ExceptT.mk (pure x)

/-- Ask for something that may be refused. A refusal is logged as an event and is a failure. -/
def ask (context : Option LogContext) (event : ε → Event) (error : ε → RunError)
    (op : Action σ (Except ε α)) : Attempt σ α := do
  match ← of op with
  | .ok a => return a
  | .error e =>
    log context (event e)
    fail (error e)

/-- Read from a store. An error of the store is a failed query. -/
def read (op : StoreOp σ α) : Attempt σ α := do
  match ← of (Action.ofOp op) with
  | .ok a => return a
  | .error e => fail (.query e)

/-- What an attempt does to a state: its answer or failure, the state after it, and its log. -/
def perform (x : Attempt σ α) (s : σ) : Done σ (Except RunError α) := x.run s

end Attempt

end NetAudit
