import NetAudit.Request

/-!
# Services that fail on plan

To see what becomes of a run when something goes wrong, services can be given a list of faults. Each
fault says which calls it strikes, how many of them it lets pass first, and how often it strikes. A
call that is struck fails and does nothing else.

Main definition: `Services.withFaults`.
-/

namespace NetAudit

/-- What can be asked of services. -/
inductive Call where
  | query
  | measurement
  | device
  | task
  | persistMeasurement
  | persistSummary
  | persistEntry
  | summary
  | summaries
  | entries
  | enqueue
  | send
deriving DecidableEq, Repr

namespace Call

/-- The calls by their names. -/
def named : List (String × Call) := [
  ("query", query), ("measurement", measurement), ("device", device), ("task", task),
  ("persist_measurement", persistMeasurement), ("persist_summary", persistSummary),
  ("persist_entry", persistEntry), ("summary", summary), ("summaries", summaries),
  ("entries", entries), ("enqueue", enqueue), ("send", send)]

end Call

/-- What a fault looks like to the caller. -/
inductive FaultKind where
  /-- The service is out of order. -/
  | outage
  /-- The store does not find what is asked for. -/
  | notFound
  /-- The queue rejects the job. -/
  | rejected
deriving DecidableEq, Repr

/-- A plan for calls to fail. -/
structure Fault where
  call : Call
  /-- The thing that the call is about, if only such calls are struck. -/
  about : Option String
  /-- The number of calls that still pass. -/
  skip : Nat
  /-- The number of calls that are still struck, if it is limited. -/
  times : Option Nat
  kind : FaultKind
  reason : String
deriving DecidableEq, Repr

namespace Fault

/-- The fault is about such a call. -/
def concerns (f : Fault) (call : Call) (about : String) : Bool :=
  f.call = call && f.about.all (· = about)

/-- The first fault that strikes a call, and the faults after it. A fault that lets the call pass
has one call less to let pass. -/
def strike (call : Call) (about : String) : List Fault → Option Fault × List Fault
  | [] => (none, [])
  | f :: fs =>
    let (hit, rest) := strike call about fs
    if !f.concerns call about then (hit, f :: rest)
    else if 0 < f.skip then (hit, { f with skip := f.skip - 1 } :: rest)
    else
      match f.times with
      | none => (some f, f :: fs)
      | some 0 => (hit, f :: rest)
      | some (n + 1) => (some f, { f with times := some n } :: fs)

/-- What a store says. -/
def storeError (f : Fault) : StoreError :=
  match f.kind with
  | .notFound => .notFound f.reason
  | .outage | .rejected => .backend f.reason

/-- What a queue says. -/
def queueError (f : Fault) : QueueError :=
  match f.kind with
  | .rejected => .rejected queueName f.reason
  | .outage | .notFound => .unavailable f.reason

/-- What a notifier says. -/
def notifyError (f : Fault) : NotifyError := ⟨f.reason⟩

end Fault

/-- A state, and the faults that are planned for it. -/
structure Faulty (σ : Type) where
  faults : List Fault
  inner : σ

namespace Faulty

variable {σ ε α : Type}

/-- An operation, unless a fault strikes. -/
def guardOp (call : Call) (about : String) (error : Fault → ε) (op : σ → Except ε α × σ) :
    Faulty σ → Except ε α × Faulty σ := fun s =>
  match Fault.strike call about s.faults with
  | (some f, faults) => (.error (error f), { s with faults })
  | (none, faults) =>
    let (answer, inner) := op s.inner
    (answer, ⟨faults, inner⟩)

/-- An action, unless a fault strikes. -/
def guardAction (call : Call) (about : String) (error : Fault → ε)
    (x : Action σ (Except ε α)) : Action (Faulty σ) (Except ε α) := fun s =>
  match Fault.strike call about s.faults with
  | (some f, faults) => ⟨.error (error f), { s with faults }, []⟩
  | (none, faults) =>
    let done := x s.inner
    ⟨done.value, ⟨faults, done.state⟩, done.log⟩

/-- An operation of a store, unless a fault strikes. -/
def guardStore (call : Call) (about : String) (op : StoreOp σ α) : StoreOp (Faulty σ) α :=
  guardOp call about Fault.storeError op

end Faulty

/-- The store with faults. -/
def Store.withFaults (s : Store σ) : Store (Faulty σ) where
  query q n cursor := Faulty.guardStore .query "" (s.query q n cursor)
  measurement id := Faulty.guardStore .measurement id.text (s.measurement id)
  device id := Faulty.guardStore .device id.text (s.device id)
  task id := Faulty.guardStore .task id.text (s.task id)
  persistMeasurement m := Faulty.guardStore .persistMeasurement m.id.text (s.persistMeasurement m)
  persistSummary x := Faulty.guardStore .persistSummary x.kind.tag (s.persistSummary x)
  persistEntry e := Faulty.guardStore .persistEntry e.measurement.text (s.persistEntry e)
  summary id := Faulty.guardStore .summary "" (s.summary id)
  summaries limit := Faulty.guardStore .summaries "" (s.summaries limit)
  entries limit := Faulty.guardStore .entries "" (s.entries limit)
  pageBound w := s.pageBound w.inner

/-- The services with faults. -/
def Services.withFaults (s : Services σ) : Services (Faulty σ) where
  store := s.store.withFaults
  queue := ⟨fun job => Faulty.guardAction .enqueue "" Fault.queueError (s.queue.enqueue job)⟩
  notifier := ⟨fun m => Faulty.guardAction .send "" Fault.notifyError (s.notifier.send m)⟩

end NetAudit
