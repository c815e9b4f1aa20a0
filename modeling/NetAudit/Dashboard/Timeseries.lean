import NetAudit.Run.Attempt

/-!
# Counts over time

A time series has a row for each start of a window and a column for each kind with a validator.
Summaries of one window and kind, from repeated runs, are added up; summaries without a window are
left out.
-/

namespace NetAudit

open Calendar (Instant)

/-- The counts for one start of a window. -/
structure TimeseriesRow where
  millis : Int
  /-- The counts, in the order of the columns. -/
  values : List Nat
deriving DecidableEq, Repr

/-- Counts by the starts of windows and by kinds. -/
abbrev TimeseriesPoints := OrderedMap Instant (OrderedMap Kind Nat)

namespace Timeseries

variable {σ : Type}

/-- The names of the columns. -/
def columns : List String := Kind.validated.map Kind.tag

/-- Add the count of a summary. -/
def addSummary (metric : Metric) (points : TimeseriesPoints) (s : Summary) : TimeseriesPoints :=
  match s.windowStart with
  | none => points
  | some start =>
    points.update start fun kinds =>
      (kinds.getD .empty).update s.kind fun n => countSum [n.getD 0, metric.value s]

/-- The points of some summaries. -/
def points (metric : Metric) (summaries : List Summary) : TimeseriesPoints :=
  summaries.foldl (addSummary metric) .empty

/-- The row of a point. -/
def row (start : Instant) (kinds : OrderedMap Kind Nat) : TimeseriesRow :=
  ⟨start.millis, Kind.validated.map fun k => (kinds.find? k).getD 0⟩

/-- The rows of the first `limit` summaries of a store, by the starts of their windows. -/
def ofStore (store : Store σ) (metric : Metric) (limit : Nat) :
    Attempt σ (List TimeseriesRow) := do
  let summaries ← Attempt.read (store.summaries limit)
  return (points metric (summaries.map Stored.value)).toList.map fun e => row e.1 e.2

end Timeseries

end NetAudit
