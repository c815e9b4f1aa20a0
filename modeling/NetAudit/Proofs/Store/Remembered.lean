import NetAudit.Proofs.Store.Arrivals

/-!
# How long a reading is right

A repair writes back a whole measurement as it was read, without its task. What that changes depends
on what happened to the archive since the measurement was read. `Remembers` says for how long a
reading is right, and `Coherent` that, besides, what a program wrote are repairs of what it had
read. The operations of a shared archive keep both.
-/

namespace NetAudit

namespace Incident

/-- The measurement that another client delivered. -/
def delivery? : Incident → Option Measurement
  | changed (.measurement m) => some m
  | changed (.task _) | changed (.retask _ _) | read _ | written _ _ _ => none

/-- The measurement that was written, be it by another client or by the program. -/
def writing? : Incident → Option Measurement
  | changed (.measurement m) | written _ m _ => some m
  | changed (.task _) | changed (.retask _ _) | read _ => none

end Incident

/-- What was read is still stored, but for its task, unless something else was written under its
name. -/
def Remembers (a : Archive) (history : List Incident) : Prop :=
  ∀ pre ms post, history = pre ++ .read ms :: post → ∀ n ∈ ms,
    (∀ x ∈ post.filterMap Incident.writing?, x.id = n.id → x.SameButTask n) →
      ∃ m, a.measurements.find? n.id = some m ∧ m.SameButTask n

namespace Remembers

variable {a b : Archive} {history : List Incident}

theorem nil (a : Archive) : Remembers a [] := by
  intro pre ms post h
  simp at h

theorem read (h : Remembers a history) {ms : List Measurement}
    (hms : ∀ m ∈ ms, a.measurements.find? m.id = some m) : Remembers a (history ++ [.read ms]) := by
  intro pre ns post hsplit n hn hwritten
  rcases append_cons_eq_concat_iff.1 hsplit.symm with ⟨-, heq, -⟩ | ⟨post, rfl, hold⟩
  · cases heq
    exact ⟨n, hms n hn, rfl⟩
  · refine h pre ns post hold n hn fun x hx => hwritten x ?_
    rw [List.filterMap_append]
    exact List.mem_append_left _ hx

/-- A measurement is written. -/
theorem write (h : Remembers a history) {e : Incident} {x : Measurement}
    (he : e.writing? = some x) : Remembers (a.insertMeasurement x) (history ++ [e]) := by
  intro pre ms post hsplit n hn hwritten
  rcases append_cons_eq_concat_iff.1 hsplit.symm with ⟨-, heq, -⟩ | ⟨post, rfl, hold⟩
  · rw [← heq] at he
    cases he
  · rw [List.filterMap_append, List.filterMap_cons_some he, List.filterMap_nil] at hwritten
    rw [Archive.find?_insertMeasurement]
    by_cases hid : n.id = x.id
    · rw [if_pos hid]
      exact ⟨x, rfl, hwritten x (List.mem_append_right _ (List.mem_singleton_self x)) hid.symm⟩
    · rw [if_neg hid]
      exact h pre ms post hold n hn fun y hy => hwritten y (List.mem_append_left _ hy)

/-- Nothing happens to measurements but to their tasks. -/
theorem keep (h : Remembers a history) {c : Change}
    (hsame : ∀ id m, a.measurements.find? id = some m →
      ∃ m', b.measurements.find? id = some m' ∧ m'.SameButTask m) :
    Remembers b (history ++ [.changed c]) := by
  intro pre ms post hsplit n hn hwritten
  rcases append_cons_eq_concat_iff.1 hsplit.symm with ⟨-, heq, -⟩ | ⟨post, rfl, hold⟩
  · cases heq
  · have hbefore : ∀ x ∈ post.filterMap Incident.writing?, x.id = n.id → x.SameButTask n := by
      intro x hx
      refine hwritten x ?_
      rw [List.filterMap_append]
      exact List.mem_append_left _ hx
    obtain ⟨m, hm, hn⟩ := h pre ms post hold n hn hbefore
    obtain ⟨m', hm', hsame⟩ := hsame n.id m hm
    exact ⟨m', hm', Eq.trans hsame hn⟩

theorem change (h : Remembers a history) (c : Change) :
    Remembers (a.change c) (history ++ [.changed c]) := by
  -- A measurement is noted as such. The other changes leave every record as it was, except for its
  -- task.
  cases c with
  | measurement m => exact h.write rfl
  | task t => exact h.keep fun id m hm => ⟨m, hm, rfl⟩
  | retask id task =>
      refine h.keep fun j m hm => ?_
      rw [a.change_retask]
      cases hfind : a.measurements.find? id with
      | none => exact ⟨m, hm, rfl⟩
      | some n =>
          obtain rfl : n.id = id := a.named _ ((OrderedMap.find?_eq_some_iff _ _ _).1 hfind)
          show ∃ m', (a.insertMeasurement { n with task }).measurements.find? j = some m' ∧ _
          rw [Archive.find?_insertMeasurement]
          by_cases hj : j = n.id
          · rw [hj, hfind] at hm
            rw [if_pos hj]
            obtain rfl := Option.some.inj hm
            exact ⟨_, rfl, rfl⟩
          · rw [if_neg hj]
            exact ⟨m, hm, rfl⟩

theorem congr (h : Remembers a history) (hsame : b.measurements = a.measurements) :
    Remembers b history := by
  unfold Remembers
  rw [hsame]
  exact h

end Remembers

/-! ## What a program writes

`Coherent` says that each write of a program is the repair of something it has read, and for how
long each of its readings was right at the time of the write. -/

/-- A write of the program after `history`, which turned `before` into `after`, is the repair of a
measurement `n` for which `Q` holds. -/
def IsRepair (Q : List Incident → Measurement → Prop) (history : List Incident) (before : Archive)
    (m : Measurement) (after : Archive) : Prop :=
  Remembers before history ∧ after = before.insertMeasurement m ∧
    ∃ n, Q history n ∧ m = n.withoutTask

/-- What is known of an archive and its history, if all that the program writes are repairs. -/
structure Coherent (Q : List Incident → Measurement → Prop) (a : Archive)
    (history : List Incident) : Prop where
  remembers : Remembers a history
  repairs : ∀ pre before m after post, history = pre ++ .written before m after :: post →
    IsRepair Q pre before m after

namespace Coherent

variable {Q : List Incident → Measurement → Prop} {a b : Archive} {history : List Incident}

theorem nil (Q : List Incident → Measurement → Prop) (a : Archive) : Coherent Q a [] where
  remembers := .nil a
  repairs pre before m after post h := by simp at h

/-- Something happens that is no write. -/
theorem concat (h : Coherent Q a history) {e : Incident} (hb : Remembers b (history ++ [e]))
    (he : ∀ before m after, e ≠ .written before m after) : Coherent Q b (history ++ [e]) := by
  refine ⟨hb, fun pre before m after post hsplit => ?_⟩
  rcases append_cons_eq_concat_iff.1 hsplit.symm with ⟨-, heq, -⟩ | ⟨post, -, hold⟩
  · exact absurd heq.symm (he before m after)
  · exact h.repairs pre before m after post hold

theorem change (h : Coherent Q a history) (c : Change) :
    Coherent Q (a.change c) (history ++ [.changed c]) :=
  h.concat (h.remembers.change c) fun _ _ _ heq => nomatch heq

theorem read (h : Coherent Q a history) {ms : List Measurement}
    (hms : ∀ m ∈ ms, a.measurements.find? m.id = some m) : Coherent Q a (history ++ [.read ms]) :=
  h.concat (h.remembers.read hms) fun _ _ _ heq => nomatch heq

theorem repair (h : Coherent Q a history) {n : Measurement} (hn : Q history n) :
    let b := a.insertMeasurement n.withoutTask
    Coherent Q b (history ++ [.written a n.withoutTask b]) := by
  intro b
  refine ⟨h.remembers.write rfl, fun pre before m after post hsplit => ?_⟩
  rcases append_cons_eq_concat_iff.1 hsplit.symm with ⟨-, heq, rfl⟩ | ⟨post, -, hold⟩
  · cases heq
    exact ⟨h.remembers, rfl, n, hn, rfl⟩
  · exact h.repairs pre before m after post hold

theorem congr (h : Coherent Q a history) (hsame : b.measurements = a.measurements) :
    Coherent Q b history := ⟨h.remembers.congr hsame, h.repairs⟩

end Coherent

namespace Shared

/-! ## What the operations do

Before each operation the others have their turn. What holds after their changes and after the
operation itself holds after the call. -/

variable {s : Shared}

/-- What each change keeps is kept while the program waits. -/
theorem await_induction {P : Archive → List Incident → Prop}
    (hP : ∀ a history c, P a history → P (a.change c) (history ++ [.changed c]))
    (h : P s.archive s.history) : P s.await.archive s.await.history := by
  obtain ⟨a, upcoming, history⟩ := s
  cases upcoming with
  | nil => exact h
  | cons cs upcoming =>
      rw [await_cons rfl]
      show P (a.changeAll cs) (history ++ cs.map .changed)
      induction cs generalizing a history with
      | nil => simpa [Archive.changeAll] using h
      | cons c cs ih =>
          have hrest := ih (a.change c) (history ++ [.changed c]) (hP a history c h)
          rwa [List.append_assoc] at hrest

/-- The archive after the program wrote a measurement. -/
def afterWrite (s : Shared) (m : Measurement) : Shared :=
  let b := s.archive.insertMeasurement m
  { s with archive := b, history := s.history ++ [.written s.archive m b] }

theorem persistMeasurement_eq (m : Measurement) (s : Shared) :
    (store.persistMeasurement m s).2 =
      if s.await.archive.measurements.contains m.id then s.await.afterWrite m else s.await := by
  unfold store call afterWrite
  simp only [Archive.store, Archive.replaceMeasurement]
  split <;> simp [Except.toOption]

/-- **A repair waits**, and then it writes the measurement without its task, or nothing. -/
theorem repairTask_induction {P R : Shared → Prop} {m : Measurement}
    (hawait : ∀ s, P s → P s.await) (hstay : ∀ s, P s → R s)
    (hwrite : ∀ s, P s → R (s.afterWrite m.withoutTask)) (h : P s) :
    R (m.repairTask store s).state := by
  unfold Measurement.repairTask
  cases m.task with
  | none => exact hstay s h
  | some task =>
      have hlookup : store.task task s = (.ok (s.await.archive.tasks.find? task), s.await) :=
        ask_eq _ s
      simp only [Action.bind_apply, Action.ofOp_apply, hlookup]
      cases s.await.archive.tasks.find? task with
      | some t => exact hstay _ (hawait s h)
      | none =>
          simp only [Action.bind_apply, Action.log_apply, Action.ofOp_apply, Action.pure_apply,
            persistMeasurement_eq]
          split
          · exact hwrite _ (hawait _ (hawait s h))
          · exact hstay _ (hawait _ (hawait s h))

/-- A page holds what is stored when it is asked for. -/
theorem query_cases (q : Query) (n : Nat) (cursor : Option String) (s : Shared) :
    (∃ e, store.query q n cursor s = (.error e, s.await)) ∨
      ∃ page : Page, page.records.Sublist (s.await.archive.listed q) ∧
        store.query q n cursor s = (.ok page, s.afterRead page.records) := by
  cases hpage : s.await.archive.page q n cursor with
  | error e => exact .inl ⟨e, query_eq_error hpage⟩
  | ok page =>
      refine .inr ⟨page, ?_, query_eq hpage⟩
      unfold Archive.page at hpage
      cases hplace : Archive.place? cursor (s.await.archive.listed q).length with
      | error e => simp [hplace, bind, Except.bind] at hpage
      | ok place =>
          obtain rfl : Archive.pageFrom _ place n = page := by
            simpa [hplace, bind, Except.bind, pure, Except.pure] using hpage
          exact (List.take_sublist _ _).trans (List.drop_sublist _ _)

theorem measurement_eq (id : MeasurementId) (s : Shared) :
    store.measurement id s =
      (.ok (s.await.archive.measurements.find? id),
        s.afterRead (s.await.archive.measurements.find? id).toList) := by
  unfold store call
  simp [Archive.store, Archive.read, afterRead, Except.toOption]

end Shared

end NetAudit
