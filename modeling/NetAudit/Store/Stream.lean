import NetAudit.Log.Action

/-!
# Streams of measurements

A `RecordStream` hands out the measurements of a query in order and asks the store for a further
page only when there is nothing left to hand out. It is over with the limit of the query, with the
last page, or with an error of the store, whichever comes first.

`next` hands out one measurement, and `forEach` visits all of them. Both ask for at most as many
pages as the store says that a query can have, so they end even if a store goes on naming cursors.
-/

namespace NetAudit

/-- What is left of a query. -/
structure RecordStream where
  query : Query
  pageSize : Nat
  /-- Where to go on. -/
  cursor : Option String
  /-- What has been fetched and not been handed out. -/
  buffer : List Measurement
  /-- The number of measurements that were handed out. -/
  yielded : Nat
  /-- There are no further pages. -/
  exhausted : Bool

namespace RecordStream

variable {σ α : Type}

/-- The stream of a query, in pages of at least one measurement. -/
def ofQuery (q : Query) (pageSize : Nat) : RecordStream := ⟨q, max pageSize 1, none, [], 0, false⟩

/-- As many measurements were handed out as the query may have. -/
def limitReached (r : RecordStream) : Bool := r.query.limit.any (· ≤ r.yielded)

/-- There is no point in asking for a page. -/
def isOver (r : RecordStream) : Bool := r.limitReached || r.exhausted

/-- What can be handed out before a further page is needed. -/
def ready (r : RecordStream) : List Measurement :=
  match r.query.limit with
  | none => r.buffer
  | some n => r.buffer.take (n - r.yielded)

/-- The stream after the first `n` measurements of the buffer were handed out. -/
def advance (r : RecordStream) (n : Nat) : RecordStream :=
  { r with buffer := r.buffer.drop n, yielded := r.yielded + n }

/-- The stream with a page to hand out. Without a cursor it is the last. -/
def withPage (r : RecordStream) (p : Page) : RecordStream :=
  { r with buffer := p.records, cursor := p.cursor, exhausted := p.cursor.isNone }

/-- The stream after an error. -/
def stopped (r : RecordStream) : RecordStream := { r with exhausted := true }

/-- Ask for the next page. -/
def fetch (store : Store σ) (r : RecordStream) : Action σ (Except StoreError RecordStream) := do
  let answer ← Action.ofOp (store.query r.query r.pageSize r.cursor)
  return answer.map r.withPage

/-- Hand out a measurement, or the error of the store, and ask for up to `pages` pages before. -/
def nextWithin (store : Store σ) (pages : Nat) (r : RecordStream) :
    Action σ (Option (Except StoreError Measurement) × RecordStream) :=
  match r.ready with
  | m :: _ => return (some (.ok m), r.advance 1)
  | [] =>
    match pages with
    | 0 => return (none, r)
    | pages + 1 =>
      if r.isOver then return (none, r)
      else do
        match ← r.fetch store with
        | .error e => return (some (.error e), r.stopped)
        | .ok r => nextWithin store pages r

/-- Hand out a measurement, or the error of the store; nothing if the stream is over. -/
def next (store : Store σ) (r : RecordStream) :
    Action σ (Option (Except StoreError Measurement) × RecordStream) := do
  nextWithin store (store.pageBound (← Action.state)) r

/-- Visit what is ready, and what up to `pages` further pages hold. -/
def forEachWithin (store : Store σ) (visit : α → Measurement → Action σ α) (pages : Nat)
    (r : RecordStream) (a : α) : Action σ (α × Option StoreError) := do
  let a ← r.ready.foldlM visit a
  let r := r.advance r.ready.length
  match pages with
  | 0 => return (a, none)
  | pages + 1 =>
    if r.isOver then return (a, none)
    match ← r.fetch store with
    | .error e => return (a, some e)
    | .ok r => forEachWithin store visit pages r a

/-- Visit all measurements in order, up to the first error of the store: what the visits gave, and
that error. -/
def forEach (store : Store σ) (visit : α → Measurement → Action σ α) (r : RecordStream) (a : α) :
    Action σ (α × Option StoreError) := do
  forEachWithin store visit (store.pageBound (← Action.state)) r a

end RecordStream

end NetAudit
