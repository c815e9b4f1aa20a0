import Mathlib.Algebra.GroupWithZero.Nat
import NetAudit.Proofs.Run.Aftermath
import NetAudit.Proofs.Store.Shared

/-!
# Streams over measurements whose tasks change

The place of a measurement in the list of a query does not depend on its task. So while others write
nothing but tasks, a stream goes through the list as it was at the beginning, and so does who asks
for the pages by hand: `Query.Wants.streamed`.

The proof forgets all tasks (`Archive.taskless`, `RecordStream.taskless`). What is left of the
archive never changes, and what is left of the stream stands in a list that does not move.
-/

namespace NetAudit

/-! ## Archives without tasks

Tasks are forgotten in the table of measurements. An archive where only tasks were written is the
same as before in this sense. -/

namespace Archive

variable {a : Archive}

/-- The archive without the tasks of its measurements. -/
def taskless (a : Archive) : Archive :=
  { a with
    measurements := a.measurements.mapValues Measurement.withoutTask
    named := by
      intro row hrow
      obtain ⟨old, hold, rfl⟩ := List.mem_map.1 hrow
      exact a.named old hold }

theorem listed_taskless (a : Archive) (q : Query) :
    a.taskless.listed q = (a.listed q).map Measurement.withoutTask :=
  listed_of_values_eq_map Measurement.withoutTask_sameButTask (OrderedMap.values_mapValues _ _) q

/-- **Who writes nothing but tasks** changes nothing but tasks. -/
theorem SameButTasks.retask (a : Archive) (id : MeasurementId) (task : Option TaskId) :
    a.SameButTasks (a.change (.retask id task)) := by
  rw [a.change_retask]
  cases hfind : a.measurements.find? id with
  | none => exact .refl a
  | some m =>
      obtain rfl : m.id = id := a.named _ ((OrderedMap.find?_eq_some_iff _ _ _).1 hfind)
      refine ⟨rfl, rfl, OrderedMap.ext_find? fun j => ?_⟩
      rw [OrderedMap.find?_mapValues, OrderedMap.find?_mapValues]
      show ((a.measurements.insert m.id { m with task }).find? j).map _ = _
      rw [OrderedMap.find?_insert]
      split
      · next hj =>
        rw [hj, hfind]
        rfl
      · rfl

theorem SameButTasks.changeAll {b : Archive} (h : a.SameButTasks b)
    (ts : List (MeasurementId × Option TaskId)) :
    a.SameButTasks (b.changeAll (ts.map fun t => .retask t.1 t.2)) := by
  unfold Archive.changeAll
  induction ts generalizing b with
  | nil => exact h
  | cons t ts ih => exact ih (h.trans (.retask b t.1 t.2))

end Archive

/-! ## Streams without tasks

A stream is left without tasks as well, in what it has in its buffer. This does not change which of
its calls need a page. -/

namespace RecordStream

def taskless (r : RecordStream) : RecordStream :=
  { r with buffer := r.buffer.map Measurement.withoutTask }

@[simp] theorem ready_taskless (r : RecordStream) :
    r.taskless.ready = r.ready.map Measurement.withoutTask := by
  unfold ready taskless
  cases r.query.limit with
  | none => rfl
  | some n => exact List.map_take.symm

@[simp] theorem isEmpty_taskless (r : RecordStream) : r.taskless.isEmpty = r.isEmpty := by
  unfold isEmpty
  rw [ready_taskless, List.isEmpty_map]
  rfl

theorem advance_taskless (r : RecordStream) (n : Nat) :
    r.taskless.advance n = (r.advance n).taskless := by
  unfold taskless advance
  rw [List.map_drop]

theorem withPage_taskless (r : RecordStream) (ms : List Measurement) (place : Nat) :
    (r.withPage (Archive.pageFrom ms place r.pageSize)).taskless =
      r.taskless.withPage
        (Archive.pageFrom (ms.map Measurement.withoutTask) place r.taskless.pageSize) := by
  simp [taskless, withPage, Archive.pageFrom]

end RecordStream

/-! ## While tasks change

The stream without tasks stands at a place in a list that never changes. Each call moves it by one
item, and hands out that item with some task. -/

/-- A script in which nothing but tasks is written. -/
def retasking (ts : List (List (MeasurementId × Option TaskId))) : List (List Change) :=
  ts.map fun ts => ts.map fun t => .retask t.1 t.2

namespace Shared

variable {a : Archive} {s : Shared} {r : RecordStream} {done rest : List Measurement}

/-- Others have written nothing but tasks since the archive was `a`, and never will. -/
def OnlyRetasked (a : Archive) (s : Shared) : Prop :=
  a.SameButTasks s.archive ∧ ∃ ts, s.upcoming = retasking ts

theorem OnlyRetasked.ofArchive (a : Archive) (ts : List (List (MeasurementId × Option TaskId))) :
    OnlyRetasked a (ofArchive a (retasking ts)) := ⟨.refl a, ts, rfl⟩

theorem OnlyRetasked.await (h : OnlyRetasked a s) : OnlyRetasked a s.await := by
  obtain ⟨hsame, ts, hts⟩ := h
  cases ts with
  | nil => rw [await_nil hts]; exact ⟨hsame, [], hts⟩
  | cons t ts => rw [await_cons hts]; exact ⟨hsame.changeAll t, ts, rfl⟩

theorem OnlyRetasked.listed (h : OnlyRetasked a s) (q : Query) :
    (s.archive.listed q).map Measurement.withoutTask = a.taskless.listed q := by
  rw [h.1.map_listed, a.listed_taskless]

theorem OnlyRetasked.length_listed (h : OnlyRetasked a s) (q : Query) :
    (s.archive.listed q).length = (a.listed q).length := by
  have hlen := congrArg List.length (h.1.map_listed q)
  rwa [List.length_map, List.length_map] at hlen

/-- Without tasks, the stream stands in the list of the beginning. -/
structure GoesThrough (a : Archive) (s : Shared) (r : RecordStream) (done rest : List Measurement) :
    Prop where
  retasked : OnlyRetasked a s
  stands : r.taskless.StandsAt a.taskless done rest

/-- Be it after a page or without, a stream hands out what it has at hand. -/
theorem GoesThrough.next_eq (h : GoesThrough a s r done rest) :
    ∃ r' s', r.next store s = ⟨r'.handOut, s', []⟩ ∧ r'.isEmpty = false ∧
      GoesThrough a s' r' done rest := by
  cases hempty : r.isEmpty with
  | false => exact ⟨r, s, RecordStream.next_of_not_isEmpty hempty s, hempty, h⟩
  | true =>
      have hawait := h.retasked.await
      obtain ⟨hcursor, hplace⟩ := h.stands.place_of_isEmpty (by simpa using hempty)
      have hlen : (a.taskless.listed r.query).length = (s.await.archive.listed r.query).length := by
        rw [← hawait.listed, List.length_map]
      refine ⟨_, _, next_of_isEmpty hempty hcursor (hlen ▸ hplace),
        r.isEmpty_withPage _ _ _, hawait, ?_⟩
      rw [r.withPage_taskless, hawait.listed]
      exact h.stands.withPage

theorem GoesThrough.handOut_cons {m : Measurement} (h : GoesThrough a s r done (m :: rest))
    (hempty : r.isEmpty = false) :
    ∃ n, r.handOut = (some (.ok n), r.advance 1) ∧ n.withoutTask = m ∧
      GoesThrough a s (r.advance 1) (done ++ [m]) rest := by
  obtain ⟨hhead, hstands⟩ := h.stands.ready_of_cons (by simpa using hempty)
  rw [RecordStream.ready_taskless, List.head?_map, Option.map_eq_some_iff] at hhead
  obtain ⟨n, hn, hm⟩ := hhead
  rw [RecordStream.advance_taskless] at hstands
  exact ⟨n, RecordStream.handOut_of_head? hn, hm, h.retasked, hstands⟩

/-- **A stream hands out the rest of its list**, but for tasks, and then it is over. -/
theorem GoesThrough.nexts (h : GoesThrough a s r done rest) (count : Nat) :
    ∃ out : List Measurement, (r.nexts store count s).value.1 =
        out.map (fun m => some (.ok m)) ++ List.replicate (count - rest.length) none ∧
      out.map Measurement.withoutTask = rest.take count ∧
      (rest.length < count → (r.nexts store count s).value.2.isOver = true) := by
  induction count generalizing s r done rest with
  | zero => exact ⟨[], by simp [RecordStream.nexts], by simp, by simp⟩
  | succ count ih =>
      obtain ⟨r', s', hnext, hempty, hgoes⟩ := h.next_eq
      unfold RecordStream.nexts
      simp only [Action.bind_apply, Action.pure_apply, hnext]
      -- At the end of the list the stream is over; before it, it hands out one item.
      cases rest with
      | nil =>
          obtain ⟨hready, hover⟩ := hgoes.stands.isOver_of_nil (by simpa using hempty)
          have hready : r'.ready = [] := by simpa using hready
          have hhandOut : r'.handOut = (none, r') := by simp [RecordStream.handOut, hready]
          rw [hhandOut, RecordStream.nexts_of_isOver hready hover]
          exact ⟨[], rfl, rfl, fun _ => hover⟩
      | cons m rest =>
          obtain ⟨n, hhandOut, rfl, hgoes⟩ := hgoes.handOut_cons hempty
          obtain ⟨out, hout, hsame, hend⟩ := ih hgoes
          refine ⟨n :: out, ?_, ?_, fun hlt => ?_⟩
          · simp [hhandOut, hout]
          · simp [hsame]
          · rw [hhandOut]
            exact hend (Nat.lt_of_succ_lt_succ hlt)

end Shared

/-! ## Pages by hand

Pages that are asked for by hand may have a different size each time. They begin where the page
before has ended. -/

/-- Ask for pages of these sizes, each with the cursor that the one before it names: the
measurements on them, and whether the last one names no cursor. -/
def Query.pages {σ : Type} (store : Store σ) (q : Query) :
    List Nat → Option String → Action σ (Except StoreError (List Measurement × Bool))
  | [], _ => return .ok ([], false)
  | n :: ns, cursor => do
    match ← Action.ofOp (store.query q n cursor) with
    | .error e => return .error e
    | .ok page =>
      if page.cursor.isNone then return .ok (page.records, true)
      let rest ← pages store q ns page.cursor
      return rest.map fun later => (page.records ++ later.1, later.2)

/-- What pages of these sizes can hold. -/
def pagesTotal (sizes : List Nat) : Nat := (sizes.map (max · 1)).sum

namespace Shared

variable {a : Archive} {s : Shared}

/-- **Pages go through the list as a stream does**, whatever their sizes are. -/
theorem OnlyRetasked.pages (h : OnlyRetasked a s) (q : Query) (sizes : List Nat) {place : Nat}
    (hplace : place ≤ (a.listed q).length) :
    ∃ ms last, (q.pages store sizes (cursorAt place) s).value = .ok (ms, last) ∧
      ms.map Measurement.withoutTask = ((a.taskless.listed q).drop place).take (pagesTotal sizes) ∧
      (last = true ↔ sizes ≠ [] ∧ (a.listed q).length ≤ place + pagesTotal sizes) := by
  induction sizes generalizing s place with
  | nil => exact ⟨[], false, rfl, by simp [pagesTotal], by simp⟩
  | cons n sizes ih =>
      have hlen := h.await.length_listed q
      have hquery := query_eq (Archive.page_cursorAt (hlen ▸ hplace) n)
      have hrecords : (Archive.pageFrom (s.await.archive.listed q) place n).records.map
          Measurement.withoutTask = ((a.taskless.listed q).drop place).take (max n 1) := by
        rw [← h.await.listed, ← List.map_drop, ← List.map_take]
        rfl
      have htotal : pagesTotal (n :: sizes) = max n 1 + pagesTotal sizes := by simp [pagesTotal]
      unfold Query.pages
      simp only [Action.bind_apply, Action.ofOp_apply, hquery]
      by_cases hnext : place + max n 1 < (a.listed q).length
      · have hcursor : (Archive.pageFrom (s.await.archive.listed q) place n).cursor =
            cursorAt (place + max n 1) := by
          simp only [Archive.pageFrom, hlen, hnext, if_true, cursorAt]
          rw [if_neg (by omega)]
        have hmore : (cursorAt (place + max n 1)).isNone = false := by
          unfold cursorAt
          rw [if_neg (by omega)]
          rfl
        have hread : OnlyRetasked a (s.afterRead
            (Archive.pageFrom (s.await.archive.listed q) place n).records) := h.await
        obtain ⟨ms, last, hvalue, hms, hlast⟩ := ih hread (Nat.le_of_lt hnext)
        refine ⟨(Archive.pageFrom (s.await.archive.listed q) place n).records ++ ms, last,
          ?_, ?_, ?_⟩
        · simp only [hcursor, hmore, Bool.false_eq_true, if_false, Action.bind_apply, hvalue]
          rfl
        · rw [List.map_append, hrecords, hms, htotal, List.take_add, List.drop_drop]
        · rw [hlast, htotal]
          -- Without further sizes nothing is asked for behind this page.
          cases sizes with
          | nil =>
              simp only [pagesTotal, List.map_nil, List.sum_nil]
              simp
              omega
          | cons => simp [Nat.add_assoc]
      · have hcursor : (Archive.pageFrom (s.await.archive.listed q) place n).cursor = none := by
          simp only [Archive.pageFrom, hlen, hnext, if_false]
        refine ⟨(Archive.pageFrom (s.await.archive.listed q) place n).records, true, ?_,
          hrecords.trans ?_, ?_⟩
        · simp only [hcursor]
          rfl
        · have hshort : ((a.taskless.listed q).drop place).length ≤ max n 1 := by
            rw [List.length_drop, a.listed_taskless, List.length_map]
            omega
          rw [List.take_of_length_le hshort, List.take_of_length_le (by omega)]
        · simp
          omega

end Shared

/-! ## All of it

Both ways of reading give the list of the query as it was at the beginning, but for tasks. -/

/-- **While nothing but tasks is written, a query is answered as if nothing was written.** The
stream of a query hands out what the query wants, but for tasks, and then it is over. Who asks for
the pages by hand gets the same, with pages of any sizes. -/
theorem Query.Wants.streamed (a : Archive) (q : Query)
    (ts : List (List (MeasurementId × Option TaskId))) :
    ∃ ms, q.Wants a ms ∧
      (∀ pageSize count, ∃ out : List Measurement,
        let d := (RecordStream.ofQuery q pageSize).nexts Shared.store count
          (.ofArchive a (retasking ts))
        d.value.1 =
          out.map (fun m => some (.ok m)) ++ List.replicate (count - ms.length) none ∧
        out.map Measurement.withoutTask = (ms.take count).map Measurement.withoutTask ∧
        (ms.length < count → d.value.2.isOver = true)) ∧
      ∀ sizes, ∃ out last,
        (q.pages Shared.store sizes none (.ofArchive a (retasking ts))).value = .ok (out, last) ∧
        out.map Measurement.withoutTask =
          (ms.take (pagesTotal sizes)).map Measurement.withoutTask ∧
        (last = true ↔ sizes ≠ [] ∧ ms.length ≤ pagesTotal sizes) := by
  have hretasked := Shared.OnlyRetasked.ofArchive a ts
  refine ⟨a.listed q, a.wants_listed q, ?_, ?_⟩
  · intro pageSize count
    have hgoes : Shared.GoesThrough a (.ofArchive a (retasking ts))
        (RecordStream.ofQuery q pageSize) [] (a.taskless.listed q) :=
      ⟨hretasked, RecordStream.standsAt_ofQuery q pageSize a.taskless⟩
    have hnexts := hgoes.nexts count
    rw [a.listed_taskless, List.length_map, ← List.map_take] at hnexts
    exact hnexts
  · intro sizes
    have hpages := hretasked.pages q sizes (Nat.zero_le _)
    rw [a.listed_taskless, List.drop_zero, ← List.map_take] at hpages
    simpa [cursorAt] using hpages

end NetAudit
