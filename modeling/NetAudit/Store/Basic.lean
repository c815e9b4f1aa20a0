import NetAudit.Summary

/-!
# What a store offers

A store holds measurements, devices and tasks, and takes summaries and entries. A `Store σ` is a
record of its operations on a state of type `σ`: each gives an answer or an error, and the state
after it. Programs are written against this record, so that they run on any store.

Measurements are fetched in pages. A page may name a cursor, with which the next one is asked for.
-/

namespace NetAudit

open Calendar (Instant)

/-- Why a store does not do what it is asked for. -/
inductive StoreError where
  | notFound (what : String)
  | backend (reason : String)
deriving DecidableEq, Repr

/-- The wording of an error. -/
def StoreError.message : StoreError → String
  | notFound what => "record not found: " ++ what
  | backend reason => "store backend error: " ++ reason

/-- Which measurements are wanted, and how many at most. -/
structure Query where
  kind : Option Kind := none
  start : Option Instant := none
  stop : Option Instant := none
  limit : Option Nat := none
deriving DecidableEq

namespace Query

/-- The measurements of a window. -/
def ofWindow (w : Window) (limit : Option Nat) : Query :=
  { start := some w.start, stop := some w.stop, limit }

/-- The measurement is of the wanted kind and time. -/
def isMatch (q : Query) (m : Measurement) : Bool :=
  q.kind.all (m.kind = ·) && q.start.all (· ≤ m.timestamp) && q.stop.all (m.timestamp < ·)

end Query

/-- Some of the measurements that are wanted, and the cursor to go on with. -/
structure Page where
  records : List Measurement
  cursor : Option String

/-- An operation on a state: its answer or an error, and the state after it. -/
abbrev StoreOp (σ α : Type) := σ → Except StoreError α × σ

/-- The operations of a store. -/
structure Store (σ : Type) where
  /-- The page of a query that begins at a cursor, or the first one without a cursor. The number is
  the page size: the page has at most so many measurements, and a size of zero counts as one. -/
  query : Query → Nat → Option String → StoreOp σ Page
  measurement : MeasurementId → StoreOp σ (Option Measurement)
  /-- The device, unless it was deleted. -/
  device : DeviceId → StoreOp σ (Option DeviceInfo)
  /-- The task, unless it was deleted. -/
  task : TaskId → StoreOp σ (Option TaskInfo)
  /-- Write a measurement in place of the one with its name. -/
  persistMeasurement : Measurement → StoreOp σ Unit
  persistSummary : Summary → StoreOp σ SummaryId
  persistEntry : Entry → StoreOp σ EntryId
  summary : SummaryId → StoreOp σ (Option Summary)
  /-- The first summaries by the start of their windows. -/
  summaries : Nat → StoreOp σ (List (Stored SummaryId Summary))
  /-- The first entries in the order in which they were stored. -/
  entries : Nat → StoreOp σ (List (Stored EntryId Entry))
  /-- More pages than this no query has on the present state. -/
  pageBound : σ → Nat

/-- The operation on a part of a larger state. -/
def StoreOp.zoom (get : ω → σ) (set : σ → ω → ω) (op : StoreOp σ α) : StoreOp ω α := fun w =>
  let (answer, s) := op (get w)
  (answer, set s w)

/-- The store that is a part of a larger state. -/
def Store.zoom (get : ω → σ) (set : σ → ω → ω) (s : Store σ) : Store ω where
  query q n cursor := (s.query q n cursor).zoom get set
  measurement id := (s.measurement id).zoom get set
  device id := (s.device id).zoom get set
  task id := (s.task id).zoom get set
  persistMeasurement m := (s.persistMeasurement m).zoom get set
  persistSummary x := (s.persistSummary x).zoom get set
  persistEntry e := (s.persistEntry e).zoom get set
  summary id := (s.summary id).zoom get set
  summaries limit := (s.summaries limit).zoom get set
  entries limit := (s.entries limit).zoom get set
  pageBound w := s.pageBound (get w)

end NetAudit
