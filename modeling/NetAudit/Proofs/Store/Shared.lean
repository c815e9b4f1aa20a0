import NetAudit.Proofs.Store.Paging

/-!
# An archive that others use as well

Between two calls of a program the other clients of its store may do something. A `Shared` archive
comes with a script of that: what others do before the first call, before the second one, and so on.
So whatever is shown for every script holds for every order in which calls and changes can come.

The history of a shared archive says what happened to it so far. No operation looks at it.
-/

namespace NetAudit

variable {σ α : Type}

/-- What another client does. -/
inductive Change where
  /-- A measurement is delivered. -/
  | measurement (m : Measurement)
  /-- A task is delivered. -/
  | task (t : TaskInfo)
  /-- A stored measurement is written with another task. -/
  | retask (id : MeasurementId) (task : Option TaskId)
deriving DecidableEq

namespace Archive

def change (a : Archive) : Change → Archive
  | .measurement m => a.insertMeasurement m
  | .task t => a.insertTask t
  | .retask id task =>
    match a.measurements.find? id with
    | none => a
    | some m => (replaceMeasurement { m with task } a).2

theorem change_retask (a : Archive) (id : MeasurementId) (task : Option TaskId) :
    a.change (.retask id task) =
      match a.measurements.find? id with
      | none => a
      | some m => a.insertMeasurement { m with task } := by
  unfold change
  cases hfind : a.measurements.find? id with
  | none => simp only [hfind]
  | some m =>
      have hid : m.id = id := a.named _ ((OrderedMap.find?_eq_some_iff _ _ _).1 hfind)
      have hthere : a.measurements.contains m.id = true := by
        simp [OrderedMap.contains, hid, hfind]
      simp only [hfind, replaceMeasurement, hthere, if_true]

def changeAll (a : Archive) (cs : List Change) : Archive := cs.foldl change a

end Archive

/-- What happened to an archive. -/
inductive Incident where
  /-- The program read measurements. -/
  | read (ms : List Measurement)
  | changed (c : Change)
  /-- The program wrote a measurement. -/
  | written (before : Archive) (m : Measurement) (after : Archive)
deriving DecidableEq

structure Shared where
  archive : Archive
  /-- What others do before each of the next calls. -/
  upcoming : List (List Change)
  /-- What happened so far, the first thing first. -/
  history : List Incident

namespace Shared

def ofArchive (a : Archive) (upcoming : List (List Change)) : Shared := ⟨a, upcoming, []⟩

/-- Others do what they do before the next call. -/
def await (s : Shared) : Shared :=
  match s.upcoming with
  | [] => s
  | cs :: upcoming => ⟨s.archive.changeAll cs, upcoming, s.history ++ cs.map .changed⟩

theorem await_nil {s : Shared} (h : s.upcoming = []) : s.await = s := by
  unfold await
  rw [h]

theorem await_cons {s : Shared} {cs : List Change} {upcoming : List (List Change)}
    (h : s.upcoming = cs :: upcoming) :
    s.await = ⟨s.archive.changeAll cs, upcoming, s.history ++ cs.map .changed⟩ := by
  unfold await
  rw [h]

/-- The operation, after what others do before it, and with a note of what it did. -/
def call (op : StoreOp Archive α)
    (note : Archive → Except StoreError α → Archive → List Incident) : StoreOp Shared α := fun s =>
  let s := s.await
  let (answer, a) := op s.archive
  (answer, { s with archive := a, history := s.history ++ note s.archive answer a })

/-- The operation without a note. -/
def ask (op : StoreOp Archive α) : StoreOp Shared α := call op fun _ _ _ => []

theorem ask_eq (op : StoreOp Archive α) (s : Shared) :
    ask op s = ((op s.await.archive).1, { s.await with archive := (op s.await.archive).2 }) := by
  simp [ask, call]

/-- The operations of the store of an archive that others use as well. -/
def store : Store Shared where
  query q n cursor := call (Archive.store.query q n cursor) fun _ answer _ =>
    answer.toOption.toList.map fun page => .read page.records
  measurement id := call (Archive.store.measurement id) fun _ answer _ =>
    answer.toOption.toList.map fun m => .read m.toList
  device id := ask (Archive.store.device id)
  task id := ask (Archive.store.task id)
  persistMeasurement m := call (Archive.store.persistMeasurement m) fun before answer after =>
    answer.toOption.toList.map fun _ => .written before m after
  persistSummary x := ask (Archive.store.persistSummary x)
  persistEntry e := ask (Archive.store.persistEntry e)
  summary id := ask (Archive.store.summary id)
  summaries limit := ask (Archive.store.summaries limit)
  entries limit := ask (Archive.store.entries limit)
  pageBound s := Archive.store.pageBound s.archive + s.upcoming.flatten.length

end Shared

/-! ## Histories

The history has the readings of the program, its writes, and the changes of others, in the order in
which they happened. -/

/-- What stands before the last of several things stood there before that one came. -/
theorem append_cons_eq_concat_iff {β : Type} {xs ys hist : List β} {x e : β} :
    xs ++ x :: ys = hist ++ [e] ↔
      (ys = [] ∧ x = e ∧ xs = hist) ∨ ∃ zs, ys = zs ++ [e] ∧ hist = xs ++ x :: zs := by
  constructor
  · intro h
    rcases List.eq_nil_or_concat ys with rfl | ⟨zs, z, rfl⟩
    · obtain ⟨hinit, hlast⟩ := List.append_inj' h rfl
      exact .inl ⟨rfl, (List.cons.inj hlast).1, hinit⟩
    · have hsplit : (xs ++ x :: zs) ++ [z] = hist ++ [e] := by simpa using h
      obtain ⟨hinit, hlast⟩ := List.append_inj' hsplit rfl
      obtain rfl := (List.cons.inj hlast).1
      exact .inr ⟨zs, List.concat_eq_append, hinit.symm⟩
  · rintro (⟨rfl, rfl, rfl⟩ | ⟨zs, rfl, rfl⟩) <;> simp

/-- The measurements that were read, in the order in which that was done. -/
def readings (history : List Incident) : List Measurement :=
  history.flatMap fun
    | .read ms => ms
    | .changed _ | .written _ _ _ => []

theorem exists_of_mem_readings {history : List Incident} {m : Measurement}
    (h : m ∈ readings history) :
    ∃ pre ms post, history = pre ++ .read ms :: post ∧ m ∈ ms := by
  obtain ⟨e, he, hm⟩ := List.mem_flatMap.1 h
  obtain ⟨pre, post, rfl⟩ := List.append_of_mem he
  cases e with
  | read ms => exact ⟨pre, ms, post, rfl, hm⟩
  | changed c => cases hm
  | written before n after => cases hm

/-! ## One measurement after the other

A call of a stream comes in two kinds: one is answered from what is at hand and does not touch the
store, the other asks for a page at a known place. -/

namespace Archive

/-- A page that is not the last has measurements, and its cursor names the place after them. -/
theorem pageFrom_of_cursor {ms : List Measurement} {place pageSize : Nat}
    (h : (pageFrom ms place pageSize).cursor.isNone = false) :
    0 < (pageFrom ms place pageSize).records.length ∧
      (pageFrom ms place pageSize).cursor =
        cursorAt (place + (pageFrom ms place pageSize).records.length) := by
  unfold pageFrom at *
  by_cases hnext : place + max pageSize 1 < ms.length
  · have hfull : min (max pageSize 1) (ms.length - place) = max pageSize 1 := by omega
    simp only [List.length_take, List.length_drop, hfull, hnext, if_true, cursorAt]
    rw [if_neg (by omega)]
    exact ⟨by omega, rfl⟩
  · simp [hnext] at h

theorem page_cursorAt {a : Archive} {q : Query} {place : Nat} (h : place ≤ (a.listed q).length)
    (pageSize : Nat) :
    a.page q pageSize (cursorAt place) = .ok (pageFrom (a.listed q) place pageSize) := by
  simp only [page, place?_cursorAt h]
  rfl

end Archive

namespace RecordStream

variable {store : Store σ}

/-- What a stream hands out next without a further page. -/
def handOut (r : RecordStream) : Option (Except StoreError Measurement) × RecordStream :=
  match r.ready with
  | [] => (none, r)
  | m :: _ => (some (.ok m), r.advance 1)

/-- The stream asks for a page before it hands out anything. -/
def isEmpty (r : RecordStream) : Bool := r.ready.isEmpty && !r.isOver

theorem handOut_of_head? {r : RecordStream} {m : Measurement} (h : r.ready.head? = some m) :
    r.handOut = (some (.ok m), r.advance 1) := by
  obtain ⟨ms, hms⟩ := List.head?_eq_some_iff.1 h
  simp [handOut, hms]

theorem nextWithin_of_not_isEmpty {r : RecordStream} (h : r.isEmpty = false) (pages : Nat) :
    r.nextWithin store pages = pure r.handOut := by
  unfold nextWithin handOut
  cases hready : r.ready with
  | cons m ms => rfl
  | nil =>
      have hover : r.isOver = true := by simpa [isEmpty, hready] using h
      cases pages with
      | zero => rfl
      | succ pages => simp [hover]

/-- As a page is not empty or the last one, one page is enough. -/
theorem isEmpty_withPage (r : RecordStream) (ms : List Measurement) (place pageSize : Nat) :
    (r.withPage (Archive.pageFrom ms place pageSize)).isEmpty = false := by
  generalize hnext : r.withPage (Archive.pageFrom ms place pageSize) = next
  cases hmore : next.exhausted with
  | true => simp [isEmpty, isOver, hmore]
  | false =>
      have hpos : 0 < next.buffer.length := by
        rw [← hnext] at hmore ⊢
        exact (Archive.pageFrom_of_cursor hmore).1
      have hbuffer : next.buffer ≠ [] := List.length_pos_iff.1 hpos
      -- Of a page with measurements nothing is ready only if the limit is reached.
      cases hlimit : next.query.limit with
      | none => simp [isEmpty, ready, hlimit, hbuffer]
      | some n =>
          by_cases hn : n ≤ next.yielded
          · simp [isEmpty, isOver, limitReached, hlimit, hn]
          · simp [isEmpty, ready, hlimit, hbuffer]
            omega

theorem next_of_not_isEmpty {r : RecordStream} (h : r.isEmpty = false) (s : σ) :
    r.next store s = ⟨r.handOut, s, []⟩ := by
  unfold next
  simp [nextWithin_of_not_isEmpty h]

variable {a : Archive} {r : RecordStream} {done rest : List Measurement}

/-- A stream with nothing at hand goes on where it stands. -/
theorem StandsAt.place_of_isEmpty (h : r.StandsAt a done rest) (hempty : r.isEmpty = true) :
    r.cursor = cursorAt r.yielded ∧ r.yielded ≤ (a.listed r.query).length := by
  obtain ⟨hready, hover⟩ : r.ready = [] ∧ r.isOver = false := by simpa [isEmpty] using hempty
  rw [h.ready_eq] at hready
  have hcursor := h.cursor (Bool.or_eq_false_iff.1 hover).2
  rw [hready] at hcursor
  refine ⟨hcursor, ?_⟩
  rw [h.listed, h.yielded, List.length_append]
  exact Nat.le_add_right _ _

theorem StandsAt.isOver_of_nil (h : r.StandsAt a done []) (hempty : r.isEmpty = false) :
    r.ready = [] ∧ r.isOver = true := by
  have hready : r.ready = [] := by
    rw [h.ready_eq]
    exact List.prefix_nil.1 h.buffer
  exact ⟨hready, by simpa [isEmpty, hready] using hempty⟩

/-- What a stream has at hand is what comes next in its list. -/
theorem StandsAt.ready_of_cons {m : Measurement} (h : r.StandsAt a done (m :: rest))
    (hempty : r.isEmpty = false) :
    r.ready.head? = some m ∧ (r.advance 1).StandsAt a (done ++ [m]) rest := by
  rw [h.ready_eq]
  cases hbuffer : r.buffer with
  | nil =>
      have hover : r.isOver = true := by simpa [isEmpty, h.ready_eq, hbuffer] using hempty
      have hleft := (h.isOver_advance (by rw [hbuffer]; exact hover)).1
      rw [hbuffer] at hleft
      cases hleft
  | cons n buffer =>
      have hprefix := h.buffer
      rw [hbuffer] at hprefix
      obtain rfl := (List.cons_prefix_cons.1 hprefix).1
      have hlist : a.listed r.query = (done ++ [n]) ++ rest := by
        rw [h.listed, List.append_assoc, List.singleton_append]
      exact ⟨rfl, h.advance_one hbuffer (by simp) hlist⟩

/-- Ask a stream for measurements in a row: the answers, and the stream after them. -/
def nexts (store : Store σ) :
    Nat → RecordStream → Action σ (List (Option (Except StoreError Measurement)) × RecordStream)
  | 0, r => return ([], r)
  | count + 1, r => do
    let (answer, r) ← r.next store
    let (answers, r) ← nexts store count r
    return (answer :: answers, r)

/-- A stream that is over stays over. -/
theorem nexts_of_isOver {r : RecordStream} (hready : r.ready = []) (hover : r.isOver = true)
    (count : Nat) (s : σ) : r.nexts store count s = ⟨(List.replicate count none, r), s, []⟩ := by
  have hempty : r.isEmpty = false := by simp [isEmpty, hover]
  have hhandOut : r.handOut = (none, r) := by simp [handOut, hready]
  induction count with
  | zero => rfl
  | succ count ih =>
      unfold nexts
      simp only [Action.bind_apply, Action.pure_apply, next_of_not_isEmpty hempty s, hhandOut, ih]
      rfl

end RecordStream

namespace Shared

/-- The archive after the program read measurements in it. -/
def afterRead (s : Shared) (ms : List Measurement) : Shared :=
  { s.await with history := s.await.history ++ [.read ms] }

theorem query_eq {q : Query} {n : Nat} {cursor : Option String} {s : Shared} {page : Page}
    (h : s.await.archive.page q n cursor = .ok page) :
    store.query q n cursor s = (.ok page, s.afterRead page.records) := by
  unfold store call
  simp only [Archive.store, h]
  rfl

theorem query_eq_error {q : Query} {n : Nat} {cursor : Option String} {s : Shared} {e : StoreError}
    (h : s.await.archive.page q n cursor = .error e) :
    store.query q n cursor s = (.error e, s.await) := by
  unfold store call
  simp [Archive.store, h, Except.toOption]

/-- A stream that goes on at a place of the list gets the page there. -/
theorem fetch_eq {r : RecordStream} {s : Shared} {place : Nat} (hcursor : r.cursor = cursorAt place)
    (hplace : place ≤ (s.await.archive.listed r.query).length) :
    let page := Archive.pageFrom (s.await.archive.listed r.query) place r.pageSize
    r.fetch store s = ⟨.ok (r.withPage page), s.afterRead page.records, []⟩ := by
  intro page
  have hpage : s.await.archive.page r.query r.pageSize r.cursor = .ok page :=
    hcursor ▸ Archive.page_cursorAt hplace r.pageSize
  unfold RecordStream.fetch
  simp only [Action.bind_apply, Action.ofOp_apply, query_eq hpage]
  rfl

theorem exists_pageBound (s : Shared) : ∃ pages, store.pageBound s = pages + 1 :=
  ⟨s.archive.measurements.size + s.upcoming.flatten.length, Nat.add_right_comm _ _ _⟩

/-- A stream with nothing at hand gets a page and hands out what comes first on it. -/
theorem next_of_isEmpty {r : RecordStream} {s : Shared} {place : Nat} (h : r.isEmpty = true)
    (hcursor : r.cursor = cursorAt place)
    (hplace : place ≤ (s.await.archive.listed r.query).length) :
    let page := Archive.pageFrom (s.await.archive.listed r.query) place r.pageSize
    r.next store s = ⟨(r.withPage page).handOut, s.afterRead page.records, []⟩ := by
  intro page
  obtain ⟨hready, hover⟩ : r.ready = [] ∧ r.isOver = false := by
    simpa [RecordStream.isEmpty] using h
  obtain ⟨pages, hpages⟩ := s.exists_pageBound
  unfold RecordStream.next
  simp only [Action.bind_apply, Action.state_apply, hpages]
  unfold RecordStream.nextWithin
  simp only [hready, hover, Bool.false_eq_true, if_false, Action.bind_apply,
    fetch_eq hcursor hplace]
  rw [RecordStream.nextWithin_of_not_isEmpty (r.isEmpty_withPage _ _ _)]
  rfl

end Shared

end NetAudit
