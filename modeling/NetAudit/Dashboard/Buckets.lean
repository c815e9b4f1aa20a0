import NetAudit.Run.Attempt

/-!
# Buckets of time

An index of the measurements with errors: by the start of the window in which they were found, and
then by kind. Each `Cell` holds links to measurements and the number of errors that the summaries
behind it have counted. An entry whose summary or measurement cannot be found is left out, and so is
one whose summary has no window.

A summary is looked up once, however many entries point to it, and its errors count once.
-/

namespace NetAudit

open Calendar (Instant)

/-- A measurement with errors, and the device that it came from. -/
structure Link where
  measurement : MeasurementId
  device : DeviceId
deriving DecidableEq

/-- The measurements of one kind in one bucket. -/
structure Cell where
  /-- The errors of the summaries behind the cell. -/
  count : Nat
  links : List Link
deriving DecidableEq

/-- Cells by the tags of kinds. -/
abbrev Bucket := OrderedMap String Cell

/-- Buckets by the starts of windows. -/
abbrev Buckets := OrderedMap Instant Bucket

namespace Cell

/-- The cell of nothing. -/
def empty : Cell := ⟨0, []⟩

/-- Add a link, and the errors of its summary. -/
def add (c : Cell) (errors : Nat) (link : Link) : Cell :=
  ⟨countSum [c.count, errors], c.links ++ [link]⟩

end Cell

/-- Add a link to the cell of a window and a kind. -/
def Buckets.add (b : Buckets) (start : Instant) (tag : String) (errors : Nat) (link : Link) :
    Buckets :=
  b.update start fun bucket =>
    (bucket.getD .empty).update tag fun cell => (cell.getD .empty).add errors link

/-- The buckets of some entries, and what was learned about summaries on the way. -/
structure BucketIndex where
  buckets : Buckets
  /-- The summaries that were looked up. -/
  known : List (SummaryId × Option Summary)
  /-- The summaries whose errors were counted. -/
  counted : List SummaryId

namespace BucketIndex

variable {σ : Type}

/-- The index of no entries. -/
def empty : BucketIndex := ⟨.empty, [], []⟩

/-- Look up a summary, unless that was done before. -/
def summary (store : Store σ) (x : BucketIndex) (id : SummaryId) :
    Attempt σ (Option Summary × BucketIndex) := do
  match x.known.lookup id with
  | some found => return (found, x)
  | none =>
    let found ← Attempt.read (store.summary id)
    return (found, { x with known := (id, found) :: x.known })

/-- Enter a measurement under a summary with a window. -/
def enter (x : BucketIndex) (start : Instant) (id : SummaryId) (s : Summary) (link : Link) :
    BucketIndex :=
  let errors := if id ∈ x.counted then 0 else s.errorCount
  { x with
    buckets := x.buckets.add start s.kind.tag errors link
    counted := id :: x.counted }

/-- Enter what an entry points to, if all of it can be found. -/
def addEntry (store : Store σ) (x : BucketIndex) (e : Entry) : Attempt σ BucketIndex := do
  let (summary, x) ← x.summary store e.summary
  match summary with
  | none =>
    Attempt.log none (.entryOrphaned e.summary)
    return x
  | some s =>
    match s.windowStart with
    | none => return x
    | some start =>
      match ← Attempt.read (store.measurement e.measurement) with
      | none =>
        Attempt.log none (.measurementMissing e.measurement)
        return x
      | some m => return x.enter start e.summary s ⟨m.id, m.device⟩

end BucketIndex

namespace Buckets

variable {σ : Type}

/-- The buckets of some entries. -/
def ofEntries (store : Store σ) (entries : List Entry) : Attempt σ Buckets := do
  return (← entries.foldlM (BucketIndex.addEntry store) .empty).buckets

/-- The buckets of the first `limit` entries of a store. -/
def ofStore (store : Store σ) (limit : Nat) : Attempt σ Buckets := do
  let entries ← Attempt.read (store.entries limit)
  ofEntries store (entries.map Stored.value)

end Buckets

end NetAudit
