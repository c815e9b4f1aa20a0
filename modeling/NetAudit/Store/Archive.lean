import NetAudit.Store.Basic

/-!
# A store in memory

An `Archive` is the plainest store: tables of measurements, devices and tasks by name, and the lists
of all summaries and entries in the order in which they came. A query lists what matches by time,
and among measurements of one instant by name; a cursor is the place in that list from which to go
on.

`Archive.listed` is what a query is about, and `Archive.page` cuts it into pages.
-/

namespace NetAudit

/-- Measurements, devices and tasks by name, and the results in the order in which they came, with
the number from which their names are counted. -/
structure Archive where
  first : Nat
  measurements : OrderedMap MeasurementId Measurement
  devices : OrderedMap DeviceId DeviceInfo
  tasks : OrderedMap TaskId TaskInfo
  summaries : List (Stored SummaryId Summary)
  entries : List (Stored EntryId Entry)
  /-- Every measurement stands under its own name. -/
  named : ∀ row ∈ measurements.toList, row.2.id = row.1
deriving DecidableEq

namespace Archive

/-! ### Filling an archive -/

/-- The archive without contents. -/
def empty (first : Nat) : Archive :=
  ⟨first, .empty, .empty, .empty, [], [], fun _ h => absurd h List.not_mem_nil⟩

instance : Inhabited Archive := ⟨empty 0⟩

/-- Put a device under its name, in place of any that stands there. -/
def insertDevice (a : Archive) (d : DeviceInfo) : Archive :=
  { a with devices := a.devices.insert d.id d }

/-- Put a task under its name, in place of any that stands there. -/
def insertTask (a : Archive) (t : TaskInfo) : Archive :=
  { a with tasks := a.tasks.insert t.id t }

/-- Put a measurement under its name, in place of any that stands there. -/
def insertMeasurement (a : Archive) (m : Measurement) : Archive :=
  { a with
    measurements := a.measurements.insert m.id m
    named := fun row h => by
      rcases OrderedMap.mem_insertEntry h with rfl | h
      · rfl
      · exact a.named row h }

/-- The archive of all that was delivered. -/
def ofSnapshot (first : Nat) (s : Snapshot) : Archive :=
  let a := s.devices.foldl insertDevice (empty first)
  let a := s.tasks.foldl insertTask a
  s.measurements.foldl insertMeasurement a

/-! ### Queries -/

/-- Measurements come by time, and by name among those of one instant. -/
def comesFirst (m n : Measurement) : Bool :=
  ((compare m.timestamp n.timestamp).then (compare m.id n.id)).isLE

/-- The measurements that match a query, in their order. -/
def matching (a : Archive) (q : Query) : List Measurement :=
  (a.measurements.values.filter q.isMatch).mergeSort comesFirst

/-- The measurements that a query is about: the first that match, up to the limit. -/
def listed (a : Archive) (q : Query) : List Measurement :=
  match q.limit with
  | none => a.matching q
  | some n => (a.matching q).take n

/-- The place in a list from which to go on, which a cursor names: a number of 64 bits, or one that
is no longer than the list. -/
def place? (cursor : Option String) (length : Nat) : Except StoreError Nat :=
  match cursor with
  | none => .ok 0
  | some text =>
    match Number.natural? (max Number.countBound (length + 1)) text.toList with
    | some n => .ok n
    | none => .error (.backend ("invalid cursor " ++ Text.quoted text))

/-- The part of a list from a place on that fits on a page, and the cursor of the part after it. -/
def pageFrom (ms : List Measurement) (place pageSize : Nat) : Page :=
  let next := place + max pageSize 1
  ⟨(ms.drop place).take (max pageSize 1), if next < ms.length then some (toString next) else none⟩

/-- A page of the measurements that a query is about. -/
def page (a : Archive) (q : Query) (pageSize : Nat) (cursor : Option String) :
    Except StoreError Page := do
  let ms := a.listed q
  return pageFrom ms (← place? cursor ms.length) pageSize

/-! ### Results -/

/-- The value under a name. -/
def lookup [DecidableEq ι] (rows : List (Stored ι α)) (id : ι) : Option α :=
  (rows.find? (·.id = id)).map Stored.value

/-- The summary under a name. -/
def summary? (a : Archive) (id : SummaryId) : Option Summary := lookup a.summaries id

/-- The summaries by the start of their windows, those without a window first; summaries of one
start stand in the order in which they came. -/
def summariesByStart (a : Archive) : List (Stored SummaryId Summary) :=
  a.summaries.mergeSort fun x y => (compare x.value.windowStart y.value.windowStart).isLE

/-- Replace the measurement with the same name, which has to be there. -/
def replaceMeasurement (m : Measurement) : StoreOp Archive Unit := fun a =>
  if a.measurements.contains m.id then (.ok (), a.insertMeasurement m)
  else (.error (.notFound m.id.text), a)

/-- Add a summary. -/
def addSummary (s : Summary) : StoreOp Archive SummaryId := fun a =>
  let id := SummaryId.nth a.first a.summaries.length
  (.ok id, { a with summaries := a.summaries ++ [⟨id, s⟩] })

/-- Add an entry, whose summary has to be there. -/
def addEntry (e : Entry) : StoreOp Archive EntryId := fun a =>
  if (a.summary? e.summary).isSome then
    let id := EntryId.nth a.first a.entries.length
    (.ok id, { a with entries := a.entries ++ [⟨id, e⟩] })
  else (.error (.notFound e.summary.text), a)

/-- An operation that only reads. -/
def read (f : Archive → α) : StoreOp Archive α := fun a => (.ok (f a), a)

/-- The operations of a store on an archive. -/
def store : Store Archive where
  query q pageSize cursor := fun a => (a.page q pageSize cursor, a)
  measurement id := read (·.measurements.find? id)
  device id := read (·.devices.find? id)
  task id := read (·.tasks.find? id)
  persistMeasurement := replaceMeasurement
  persistSummary := addSummary
  persistEntry := addEntry
  summary id := read (·.summary? id)
  summaries limit := read (·.summariesByStart.take limit)
  entries limit := read (·.entries.take limit)
  pageBound a := a.measurements.size + 1

end Archive

end NetAudit
