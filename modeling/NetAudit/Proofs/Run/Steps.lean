import NetAudit.Proofs.Run.Outcome

/-!
# Runs step by step

A run is a sequence of steps, each of which fetches a page, observes a record, stores a summary or
stores an entry, or does not touch the store at all. `Run.step` takes the next step of a run from
how far it has come (`Run.Progress`), so that others can do something between two steps.

The steps are those of the run itself: taken one after the other they do what `Run.execute` does, on
every store, log included (`Run.exists_proceed_eq_execute`).
-/

namespace NetAudit

namespace Run

variable {σ : Type}

/-- How far a run has come. -/
inductive Progress where
  | start
  /-- Records are observed, and up to `pages` pages may be asked for. -/
  | reading (pages : Nat) (stream : RecordStream) (t : Tally)
  /-- The accounts that are `left` are to be stored. -/
  | storing (t : Tally) (reports : List (String × KindReport)) (left : List (Kind × Account))
  /-- The `pending` entries of an account are to be stored under its summary, and then the accounts
  that are `left`. -/
  | filing (t : Tally) (reports : List (String × KindReport)) (kind : Kind) (a : Account)
    (id : SummaryId) (pending : List PendingEntry) (left : List (Kind × Account))
  | finished (answer : Except RunError Report)

/-- The report of a run, from those of the kinds. -/
def reportOf (r : Run) (unscheduled : List Window) (t : Tally)
    (kinds : List (String × KindReport)) : Report where
  run := r.name
  windowStart := r.window.start
  windowEnd := r.window.stop
  kinds := .ofList kinds
  skipped := t.skipped
  repaired := t.repaired
  entryCount := entryCount t
  unscheduled

/-- Give the report. -/
def conclude (r : Run) (unscheduled : List Window) (t : Tally)
    (kinds : List (String × KindReport)) : Attempt σ Report := do
  let report := r.reportOf unscheduled t kinds
  Attempt.log (some r.context)
    (.runCompleted report.recordTotal report.errorTotal report.skipped report.entryCount)
  return report

variable (store : Store σ) (r : Run) (unscheduled : List Window)

/-- The next step. -/
def step : Progress → Action σ Progress
  | .start => do
    Action.log (some r.context) (.runStarted r.startedAt r.window r.limit)
    return .reading (store.pageBound (← Action.state)) (.ofQuery r.query r.config.pageSize) .initial
  | .reading pages stream t =>
    match stream.ready with
    | m :: _ => return .reading pages (stream.advance 1) (← r.observe store t m)
    | [] =>
      match pages with
      | 0 => return .storing t [] t.accounts.toList
      | pages + 1 =>
        if stream.isOver then return .storing t [] t.accounts.toList
        else do
          match ← stream.fetch store with
          | .error e =>
            Action.log (some r.context) (.queryFailed e)
            return .finished (.error (.query e))
          | .ok stream => return .reading pages stream t
  | .storing t reports [] => return .finished (← (r.conclude unscheduled t reports).run)
  | .storing t reports ((kind, a) :: left) =>
    if a.summary.recordCount = 0 then
      return .storing t (reports ++ [(kind.tag, kindReport a none)]) left
    else do
      match ← (r.storeSummary store kind a.summary).run with
      | .error e => return .finished (.error e)
      | .ok id => return .filing t reports kind a id a.pending left
  | .filing t reports kind a id (p :: pending) left => do
    match ← (r.storeEntry store id p).run with
    | .error e => return .finished (.error e)
    | .ok _ => return .filing t reports kind a id pending left
  | .filing t reports kind a id [] left => do
    Action.log (some r.context)
      (.summaryStored kind id a.summary.recordCount a.summary.errorCount)
    return .storing t (reports ++ [(kind.tag, kindReport a (some id))]) left
  | .finished answer => return .finished answer

/-- A number of steps in a row. -/
def proceed : Nat → Progress → Action σ Progress
  | 0, p => return p
  | n + 1, p => do proceed n (← r.step store unscheduled p)

/-! ## What is left of a run

For each place in a run there is an attempt that does the rest of it, written with the loops of the
run itself. At the beginning this is the whole run. -/

/-- Store the accounts that are left, and give the report. -/
def storeLeft (t : Tally) (reports : List (String × KindReport)) (left : List (Kind × Account)) :
    Attempt σ Report := do
  let more ← left.mapM fun e => r.storeAccount store e.1 e.2
  r.conclude unscheduled t (reports ++ more)

/-- Do what is left of a run. -/
def complete : Progress → Attempt σ Report
  | .start => r.execute store unscheduled
  | .reading pages stream t => do
    let (t, error) ← Attempt.of (stream.forEachWithin store (r.observe store) pages t)
    match error with
    | none => r.storeLeft store unscheduled t [] t.accounts.toList
    | some e =>
      Attempt.log (some r.context) (.queryFailed e)
      Attempt.fail (.query e)
  | .storing t reports left => r.storeLeft store unscheduled t reports left
  | .filing t reports kind a id pending left => do
    pending.forM fun p => discard (r.storeEntry store id p)
    Attempt.log (some r.context)
      (.summaryStored kind id a.summary.recordCount a.summary.errorCount)
    r.storeLeft store unscheduled t (reports ++ [(kind.tag, kindReport a (some id))]) left
  | .finished answer => Attempt.ofExcept answer

end Run

/-! ## One part after the other

The loops of a run are taken apart: each does a first part and then what is left. A step is such a
first part, so a step and what is left after it are what is left before it. -/

namespace RecordStream

variable {σ α : Type} {store : Store σ} {visit : α → Measurement → Action σ α} {r : RecordStream}

theorem ready_advance (r : RecordStream) (n : Nat) : (r.advance n).ready = r.ready.drop n := by
  unfold ready advance
  cases r.query.limit with
  | none => rfl
  | some k => rw [List.drop_take, Nat.sub_sub]

theorem forEachWithin_cons {m : Measurement} {ms : List Measurement} (h : r.ready = m :: ms)
    (pages : Nat) (a : α) :
    r.forEachWithin store visit pages a =
      visit a m >>= (r.advance 1).forEachWithin store visit pages := by
  have hready : (r.advance 1).ready = ms := by rw [ready_advance, h, List.drop_one, List.tail_cons]
  have hadvance : (r.advance 1).advance ms.length = r.advance (ms.length + 1) := by
    unfold advance
    simp [Nat.add_comm, Nat.add_left_comm]
  show _ = visit a m >>= fun a => (r.advance 1).forEachWithin store visit pages a
  unfold forEachWithin
  simp only [h, hready, List.foldlM_cons, bind_assoc, List.length_cons, hadvance]

theorem forEachWithin_of_isOver (h : r.ready = []) (pages : Nat)
    (hover : pages = 0 ∨ r.isOver = true) (a : α) :
    r.forEachWithin store visit pages a = pure (a, none) := by
  unfold forEachWithin
  rw [h, List.foldlM_nil, pure_bind]
  cases pages with
  | zero => rfl
  | succ pages => exact if_pos (hover.resolve_left (Nat.succ_ne_zero pages))

theorem forEachWithin_of_not_isOver (h : r.ready = []) (pages : Nat) (hover : r.isOver = false)
    (a : α) :
    r.forEachWithin store visit (pages + 1) a = (do
      match ← r.fetch store with
      | .error e => return (a, some e)
      | .ok r => r.forEachWithin store visit pages a) := by
  conv => lhs; unfold forEachWithin
  rw [h]
  exact (pure_bind _ _).trans (if_neg (Bool.eq_false_iff.1 hover))

end RecordStream

namespace Attempt

variable {σ α : Type}

theorem run_of_bind {β : Type} (x : Action σ α) (f : α → Attempt σ β) :
    (of x >>= f).run = x >>= fun a => (f a).run := by
  unfold of
  rw [ExceptT.run_bind_lift]

theorem run_log_bind {β : Type} (c : Option LogContext) (e : Event) (f : Unit → Attempt σ β) :
    (log c e >>= f).run = Action.log c e >>= fun a => (f a).run := run_of_bind _ _

/-- What follows a failure is not done. -/
theorem run_bind {β : Type} (x : Attempt σ α) (f : α → Attempt σ β) :
    (x >>= f).run = x.run >>= fun answer =>
      match answer with
      | .error e => pure (.error e)
      | .ok a => (f a).run := by
  rw [ExceptT.run_bind]
  congr 1
  funext answer
  cases answer <;> rfl

end Attempt

namespace Run

variable {σ : Type} (store : Store σ) (r : Run) (unscheduled : List Window)

theorem execute_eq :
    r.execute store unscheduled = (do
      Attempt.log (some r.context) (.runStarted r.startedAt r.window r.limit)
      let t ← r.collect store
      r.storeLeft store unscheduled t [] t.accounts.toList) := by
  unfold execute storeLeft storeTally conclude
  simp only [bind_assoc, pure_bind, List.nil_append]
  rfl

theorem storeAccount_bind {β : Type} (kind : Kind) (a : Account)
    (f : String × KindReport → Attempt σ β) :
    r.storeAccount store kind a >>= f =
      if a.summary.recordCount = 0 then f (kind.tag, kindReport a none)
      else (do
        let id ← r.storeSummary store kind a.summary
        a.pending.forM fun p => discard (r.storeEntry store id p)
        Attempt.log (some r.context)
          (.summaryStored kind id a.summary.recordCount a.summary.errorCount)
        f (kind.tag, kindReport a (some id))) := by
  unfold storeAccount
  split <;> simp only [pure_bind, bind_assoc]

theorem storeLeft_cons (t : Tally) (reports : List (String × KindReport)) (e : Kind × Account)
    (left : List (Kind × Account)) :
    r.storeLeft store unscheduled t reports (e :: left) =
      r.storeAccount store e.1 e.2 >>= fun x =>
        r.storeLeft store unscheduled t (reports ++ [x]) left := by
  unfold storeLeft
  rw [List.mapM_cons]
  simp only [bind_assoc, pure_bind, List.append_assoc, List.singleton_append]

/-! ### The steps

One equation for each thing that a step can do, with the state that it leads to. What is left of a
run is unfolded along them, so that a step and the rest of the run make up the run again. -/

section Steps

variable {store r unscheduled} {pages : Nat} {stream : RecordStream} {t : Tally}
  {reports : List (String × KindReport)} {kind : Kind} {a : Account} {left : List (Kind × Account)}

theorem step_observe {m : Measurement} {ms : List Measurement} (h : stream.ready = m :: ms) :
    r.step store unscheduled (.reading pages stream t) =
      r.observe store t m >>= fun t => pure (.reading pages (stream.advance 1) t) := by
  simp only [step, h]

theorem step_read (h : stream.ready = []) (hover : pages = 0 ∨ stream.isOver = true) :
    r.step store unscheduled (.reading pages stream t) =
      pure (.storing t [] t.accounts.toList) := by
  cases pages with
  | zero => simp only [step, h]
  | succ pages => simp only [step, h, hover.resolve_left (Nat.succ_ne_zero pages), if_true]

theorem step_fetch (h : stream.ready = []) (hover : stream.isOver = false) :
    r.step store unscheduled (.reading (pages + 1) stream t) = (do
      match ← stream.fetch store with
      | .error e =>
        Action.log (some r.context) (.queryFailed e)
        return .finished (.error (.query e))
      | .ok stream => return .reading pages stream t) := by
  simp only [step, h, hover, Bool.false_eq_true, if_false]

theorem step_skip (h : a.summary.recordCount = 0) :
    r.step store unscheduled (.storing t reports ((kind, a) :: left)) =
      pure (.storing t (reports ++ [(kind.tag, kindReport a none)]) left) := if_pos h

theorem step_summary (h : a.summary.recordCount ≠ 0) :
    r.step store unscheduled (.storing t reports ((kind, a) :: left)) = (do
      match ← (r.storeSummary store kind a.summary).run with
      | .error e => return .finished (.error e)
      | .ok id => return .filing t reports kind a id a.pending left) := if_neg h

theorem step_entry {id : SummaryId} {p : PendingEntry} {pending : List PendingEntry} :
    r.step store unscheduled (.filing t reports kind a id (p :: pending) left) = (do
      match ← (r.storeEntry store id p).run with
      | .error e => return .finished (.error e)
      | .ok _ => return .filing t reports kind a id pending left) := rfl

end Steps

theorem complete_reading (pages : Nat) (stream : RecordStream) (t : Tally) :
    (r.complete store unscheduled (.reading pages stream t)).run =
      stream.forEachWithin store (r.observe store) pages t >>= fun x =>
        match x.2 with
        | none => (r.storeLeft store unscheduled x.1 [] x.1.accounts.toList).run
        | some e => do
          Action.log (some r.context) (.queryFailed e)
          return .error (.query e) := by
  refine (Attempt.run_of_bind _ _).trans (bind_congr fun x => ?_)
  obtain ⟨t, error⟩ := x
  cases error with
  | none => rfl
  | some e => rfl

theorem complete_filing_cons (t : Tally) (reports : List (String × KindReport)) (kind : Kind)
    (a : Account) (id : SummaryId) (p : PendingEntry) (pending : List PendingEntry)
    (left : List (Kind × Account)) :
    r.complete store unscheduled (.filing t reports kind a id (p :: pending) left) =
      r.storeEntry store id p >>= fun _ =>
        r.complete store unscheduled (.filing t reports kind a id pending left) := by
  have hfirst : (p :: pending).forM (fun p => discard (r.storeEntry store id p)) =
      r.storeEntry store id p >>= fun _ =>
        pending.forM fun p => discard (r.storeEntry store id p) := by
    show discard (r.storeEntry store id p) >>= _ = _
    simp only [Functor.discard, LawfulFunctor.map_const, Function.comp_apply, bind_map_left]
  show (p :: pending).forM (fun p => discard (r.storeEntry store id p)) >>= _ = _
  rw [hfirst, bind_assoc]
  rfl

/-- **A step does the first part of what is left.** -/
theorem complete_eq (p : Progress) :
    (r.complete store unscheduled p).run =
      r.step store unscheduled p >>= fun p => (r.complete store unscheduled p).run := by
  cases p with
  | start =>
      -- What is left is the run itself: the log entry, the fresh tally, and then the reading.
      show (r.execute store unscheduled).run = _
      rw [execute_eq]
      unfold collect RecordStream.forEach step
      simp only [bind_assoc, pure_bind, Attempt.run_of_bind, Attempt.run_log_bind,
        complete_reading]
      refine bind_congr fun _ => bind_congr fun s => bind_congr fun x => ?_
      cases x.2 with
      | none => rw [pure_bind]
      | some e => rfl
  | reading pages stream t =>
      rw [complete_reading]
      cases hready : stream.ready with
      | cons m ms =>
          rw [step_observe hready, RecordStream.forEachWithin_cons hready]
          simp only [bind_assoc, pure_bind, complete_reading]
      | nil =>
          -- Nothing is at hand, so the loop either ends here or asks for a page.
          by_cases hover : pages = 0 ∨ stream.isOver = true
          · rw [step_read hready hover, RecordStream.forEachWithin_of_isOver hready pages hover]
            simp only [pure_bind]
            rfl
          · obtain ⟨hpages, hmore⟩ := not_or.1 hover
            obtain ⟨pages, rfl⟩ := Nat.exists_eq_succ_of_ne_zero hpages
            have hover := Bool.eq_false_iff.2 hmore
            rw [step_fetch hready hover,
              RecordStream.forEachWithin_of_not_isOver hready pages hover]
            simp only [bind_assoc]
            refine bind_congr fun answer => ?_
            cases answer with
            | error e => rfl
            | ok stream => simp only [pure_bind, complete_reading]
  | storing t reports left =>
      show (r.storeLeft store unscheduled t reports left).run = _
      cases left with
      | nil =>
          unfold storeLeft step
          simp only [List.mapM_nil, pure_bind, List.append_nil, bind_assoc]
          rfl
      | cons e left =>
          -- An account is skipped as a whole, or its summary is stored and its entries are left.
          obtain ⟨kind, a⟩ := e
          rw [storeLeft_cons, storeAccount_bind]
          by_cases hzero : a.summary.recordCount = 0
          · rw [if_pos hzero, step_skip hzero, pure_bind]
            rfl
          · rw [if_neg hzero, step_summary hzero, Attempt.run_bind, bind_assoc]
            refine bind_congr fun answer => ?_
            cases answer with
            | error e => rfl
            | ok id => rfl
  | filing t reports kind a id pending left =>
      cases pending with
      | nil => rfl
      | cons p pending =>
          rw [complete_filing_cons, step_entry, Attempt.run_bind, bind_assoc]
          refine bind_congr fun answer => ?_
          cases answer with
          | error e => rfl
          | ok name => rfl
  | finished answer => rfl

theorem complete_eq_proceed (n : Nat) (p : Progress) :
    (r.complete store unscheduled p).run =
      r.proceed store unscheduled n p >>= fun p => (r.complete store unscheduled p).run := by
  induction n generalizing p with
  | zero => rfl
  | succ n ih =>
      unfold proceed
      rw [r.complete_eq, bind_assoc]
      exact bind_congr fun p => ih p

/-! ### The end

A run ends from every state: filing and storing get shorter with each step, reading takes one from
what is ready, and between two pages one from the pages that are left. -/

/-- From every state, the run is over after some number of steps. -/
def Ends (p : Progress) : Prop :=
  ∀ s, ∃ n answer, (r.proceed store unscheduled n p s).value = .finished answer

variable {store r unscheduled}

theorem Ends.of_step {p : Progress}
    (h : ∀ s, r.Ends store unscheduled (r.step store unscheduled p s).value) :
    r.Ends store unscheduled p := by
  intro s
  obtain ⟨n, answer, hover⟩ := h s (r.step store unscheduled p s).state
  exact ⟨n + 1, answer, hover⟩

theorem ends_finished (answer : Except RunError Report) :
    r.Ends store unscheduled (.finished answer) :=
  fun _ => ⟨0, answer, rfl⟩

theorem ends_filing {t : Tally} {left : List (Kind × Account)}
    (h : ∀ reports, r.Ends store unscheduled (.storing t reports left))
    (reports : List (String × KindReport)) (kind : Kind) (a : Account) (id : SummaryId)
    (pending : List PendingEntry) :
    r.Ends store unscheduled (.filing t reports kind a id pending left) := by
  induction pending with
  | nil => exact .of_step fun s => h _
  | cons p pending ih =>
      refine .of_step fun s => ?_
      rw [step_entry, Action.bind_apply]
      cases ((r.storeEntry store id p).run s).value with
      | error e => exact ends_finished _
      | ok name => exact ih

theorem ends_storing (t : Tally) (reports : List (String × KindReport))
    (left : List (Kind × Account)) :
    r.Ends store unscheduled (.storing t reports left) := by
  induction left generalizing reports with
  | nil => exact .of_step fun s => ends_finished _
  | cons e left ih =>
      obtain ⟨kind, a⟩ := e
      refine .of_step fun s => ?_
      by_cases hzero : a.summary.recordCount = 0
      · rw [step_skip hzero]
        exact ih _
      · rw [step_summary hzero, Action.bind_apply]
        cases ((r.storeSummary store kind a.summary).run s).value with
        | error e => exact ends_finished _
        | ok id => exact ends_filing ih _ _ _ _ _

/-- Between two pages, there is less and less at hand. -/
theorem ends_reading_of_ready {pages : Nat}
    (h : ∀ stream t, stream.ready = [] → r.Ends store unscheduled (.reading pages stream t))
    (stream : RecordStream) (t : Tally) : r.Ends store unscheduled (.reading pages stream t) := by
  induction hready : stream.ready generalizing stream t with
  | nil => exact h stream t hready
  | cons m ms ih =>
      refine .of_step fun s => ?_
      rw [step_observe hready]
      exact ih _ _ (by rw [RecordStream.ready_advance, hready, List.drop_one, List.tail_cons])

theorem ends_reading (pages : Nat) (stream : RecordStream) (t : Tally) :
    r.Ends store unscheduled (.reading pages stream t) := by
  -- With every page there is one page less to ask for.
  induction pages generalizing stream t with
  | zero =>
      refine ends_reading_of_ready (fun stream t hready => .of_step fun s => ?_) stream t
      rw [step_read hready (.inl rfl)]
      exact ends_storing _ _ _
  | succ pages ih =>
      refine ends_reading_of_ready (fun stream t hready => .of_step fun s => ?_) stream t
      cases hover : stream.isOver with
      | true =>
          rw [step_read hready (.inr hover)]
          exact ends_storing _ _ _
      | false =>
          rw [step_fetch hready hover, Action.bind_apply]
          cases (stream.fetch store s).value with
          | error e => exact ends_finished _
          | ok stream => exact ih _ _

theorem ends_start : r.Ends store unscheduled .start := .of_step fun _ => ends_reading _ _ _

variable (store r unscheduled)

/-- **A run is the sequence of its steps**, on every store. -/
theorem exists_proceed_eq_execute (s : σ) :
    ∃ n, r.proceed store unscheduled n .start s =
      let d := (r.execute store unscheduled).perform s
      ⟨.finished d.value, d.state, d.log⟩ := by
  have hends : r.Ends store unscheduled .start := ends_start
  obtain ⟨n, answer, hover⟩ := hends s
  refine ⟨n, ?_⟩
  -- After these steps nothing is left to do, and together with what is left they are the run.
  have hrun := congrFun (r.complete_eq_proceed store unscheduled n .start) s
  rw [Action.bind_apply] at hrun
  generalize r.proceed store unscheduled n .start s = d at hover hrun ⊢
  obtain ⟨p, s', log⟩ := d
  obtain rfl : p = .finished answer := hover
  have hanswer : (r.execute store unscheduled).perform s = ⟨answer, s', log ++ []⟩ := hrun
  simp only [hanswer, List.append_nil]

end Run

end NetAudit
