import NetAudit.Proofs.Store.Outages

/-!
# What a run makes of its records

To each record of its list a run makes a `Visit`: the record is passed over, or it is scored for
its device, and a task that is gone is cleared or not. What was counted before plays no part in it.
So a run is known by its visits (`Outages.visits`), which depend on the devices and tasks of the
archive and on the outages of its store only: the tally is a fold over them, and so is the archive
(`Run.collect_outcome`).
-/

namespace NetAudit

/-- What becomes of a record. -/
inductive Visit where
  /-- The record is passed over. -/
  | skipped
  /-- The record is scored for a device, and its task was cleared or not. -/
  | scored (device : DeviceInfo) (repaired : Bool)
deriving DecidableEq

namespace Visit

/-- The device for which the record is scored. -/
def device? : Visit → Option DeviceInfo
  | .skipped => none
  | .scored device _ => some device

/-- The task of the record is cleared. -/
def isRepaired : Visit → Bool
  | .skipped => false
  | .scored _ repaired => repaired

end Visit

/-- What is counted with a visit. -/
def Tally.visit (r : Run) (t : Tally) (m : Measurement) : Visit → Tally
  | .skipped => t.skip
  | .scored device repaired =>
    (if repaired then t.repair else t).score r.config r.window device m

/-- What a visit does to an archive. -/
def Archive.visit (a : Archive) (m : Measurement) : Visit → Archive
  | .scored _ true => a.insertMeasurement m.withoutTask
  | .scored _ false | .skipped => a

/-- The tally of the visits of a run. -/
def Tally.ofVisits (r : Run) (vs : List (Measurement × Visit)) : Tally :=
  vs.foldl (fun t p => t.visit r p.1 p.2) .initial

/-- The score of a measurement does not depend on its task. -/
theorem Tally.score_congr (r : Run) (device : DeviceInfo) {m n : Measurement} (h : m.SameButTask n)
    (t : Tally) :
    t.score r.config r.window device m = t.score r.config r.window device n := by
  unfold Measurement.SameButTask at h
  show t.score r.config r.window device m.withoutTask = _
  rw [h]
  rfl

/-- Neither the task of a record nor its repair makes a difference to the accounts that a visit
leaves, or to the records that it passes over. -/
theorem Tally.visit_congr_tasks (r : Run) {t u : Tally} {m n : Measurement} {v w : Visit}
    (hsame : m.SameButTask n) (hdevice : v.device? = w.device?)
    (haccounts : t.accounts = u.accounts) (hskipped : t.skipped = u.skipped) :
    (t.visit r m v).accounts = (u.visit r n w).accounts ∧
      (t.visit r m v).skipped = (u.visit r n w).skipped := by
  have hscore : ∀ device (t : Tally),
      t.score r.config r.window device n = t.score r.config r.window device m :=
    fun device t => (t.score_congr r device hsame).symm
  constructor
  · rcases v with _ | ⟨device, _ | _⟩ <;> rcases w with _ | ⟨device', _ | _⟩ <;>
      cases hdevice <;> simp only [visit, hscore] <;>
      simp [skip, repair, score, haccounts]
  · rcases v with _ | ⟨device, _ | _⟩ <;> rcases w with _ | ⟨device', _ | _⟩ <;>
      cases hdevice <;> simp only [visit, hscore] <;>
      simp [skip, repair, score, hskipped]

/-- Neither tasks nor repairs make a difference to the accounts of a tally, or to the records that
it passes over. -/
theorem Tally.ofVisits_congr_tasks (r : Run) {vs us : List (Measurement × Visit)}
    (h : vs.map (fun p => (p.1.withoutTask, p.2.device?)) =
      us.map fun p => (p.1.withoutTask, p.2.device?)) :
    (ofVisits r vs).accounts = (ofVisits r us).accounts ∧
      (ofVisits r vs).skipped = (ofVisits r us).skipped := by
  -- The tallies are filled side by side, and may differ in what was repaired all the way.
  have hfold : ∀ t t' : Tally, t.accounts = t'.accounts → t.skipped = t'.skipped →
      (vs.foldl (fun t p => t.visit r p.1 p.2) t).accounts =
          (us.foldl (fun t p => t.visit r p.1 p.2) t').accounts ∧
        (vs.foldl (fun t p => t.visit r p.1 p.2) t).skipped =
          (us.foldl (fun t p => t.visit r p.1 p.2) t').skipped := by
    induction vs generalizing us with
    | nil =>
        obtain rfl := List.map_eq_nil_iff.1 h.symm
        exact fun t t' haccounts hskipped => ⟨haccounts, hskipped⟩
    | cons p vs ih =>
        obtain ⟨q, us, rfl, hq, hrest⟩ := List.map_eq_cons_iff.1 h.symm
        obtain ⟨hsame, hdevice⟩ := Prod.mk.inj hq
        intro t t' haccounts hskipped
        obtain ⟨haccounts, hskipped⟩ :=
          visit_congr_tasks r hsame.symm hdevice.symm haccounts hskipped
        exact ih hrest.symm _ _ haccounts hskipped
  exact hfold .initial .initial rfl rfl

/-- But for what was repaired, the tally of visits depends on their devices only. -/
theorem Tally.ofVisits_congr (r : Run) {vs us : List (Measurement × Visit)}
    (h : vs.map (fun p => (p.1, p.2.device?)) = us.map fun p => (p.1, p.2.device?)) :
    (ofVisits r vs).accounts = (ofVisits r us).accounts ∧
      (ofVisits r vs).skipped = (ofVisits r us).skipped := by
  apply ofVisits_congr_tasks
  have hmap := congrArg (List.map fun p : Measurement × Option DeviceInfo =>
    (p.1.withoutTask, p.2)) h
  rw [List.map_map, List.map_map] at hmap
  exact hmap

/-- The archive after visits. -/
def Archive.afterVisits (a : Archive) (vs : List (Measurement × Visit)) : Archive :=
  vs.foldl (fun a p => a.visit p.1 p.2) a

/-- The record refers to a task that is gone. -/
def Archive.dangles (a : Archive) (m : Measurement) : Bool :=
  m.task.any fun task => !a.tasks.contains task

namespace Outages

/-! ## Visits in a store with outages

Which visit a record gets depends on the archive, on the outages, and on how many tasks were looked
up before. It does not depend on the records before it, as these change neither devices nor
tasks. -/

variable (o : Outages)

/-- The task of the record is cleared, if `lookups` tasks were looked up before. -/
def repairs (a : Archive) (lookups : Nat) (m : Measurement) : Bool :=
  a.dangles m && (o.task lookups).isNone && (o.measurement m.id).isNone

/-- The device for which the record is scored. -/
def deviceOf (a : Archive) (m : Measurement) : Option DeviceInfo :=
  match o.device m.device with
  | some _ => none
  | none => a.devices.find? m.device

/-- What becomes of a record. -/
def visit (a : Archive) (lookups : Nat) (m : Measurement) : Visit :=
  match o.deviceOf a m with
  | none => .skipped
  | some device => .scored device (o.repairs a lookups m)

theorem device?_visit (a : Archive) (lookups : Nat) (m : Measurement) :
    (o.visit a lookups m).device? = o.deviceOf a m := by
  unfold visit
  cases o.deviceOf a m <;> rfl

/-- The record has its device, and its task is cleared. -/
def clears (a : Archive) (lookups : Nat) (m : Measurement) : Bool :=
  (o.deviceOf a m).isSome && o.repairs a lookups m

theorem isRepaired_visit (a : Archive) (lookups : Nat) (m : Measurement) :
    (o.visit a lookups m).isRepaired = o.clears a lookups m := by
  unfold visit clears
  cases o.deviceOf a m <;> rfl

/-- A task is looked up for the record. -/
def asksTask (a : Archive) (m : Measurement) : Bool := (o.deviceOf a m).isSome && m.task.isSome

/-- The number of look-ups of tasks after a record. -/
def lookupsAfter (a : Archive) (lookups : Nat) (m : Measurement) : Nat :=
  if o.asksTask a m then lookups + 1 else lookups

/-- What becomes of records in a row. -/
def visits (a : Archive) : Nat → List Measurement → List (Measurement × Visit)
  | _, [] => []
  | lookups, m :: ms => (m, o.visit a lookups m) :: visits a (o.lookupsAfter a lookups m) ms

/-- The state after records in a row. -/
def visited (s : State) (ms : List Measurement) : State :=
  ⟨s.archive.afterVisits (o.visits s.archive s.lookups ms),
    s.lookups + ms.countP (o.asksTask s.archive)⟩

theorem map_fst_visits (a : Archive) (lookups : Nat) (ms : List Measurement) :
    (o.visits a lookups ms).map (·.1) = ms := by
  induction ms generalizing lookups with
  | nil => rfl
  | cons m ms ih =>
      rw [visits, List.map_cons, ih]

theorem asksTask_congr {a b : Archive} (hdevices : b.devices = a.devices) :
    o.asksTask b = o.asksTask a := by
  funext m
  simp only [asksTask, deviceOf, hdevices]

/-- Only the devices and tasks of an archive decide what becomes of records. -/
theorem visits_congr {a b : Archive} (hdevices : b.devices = a.devices) (htasks : b.tasks = a.tasks)
    (lookups : Nat) (ms : List Measurement) : o.visits b lookups ms = o.visits a lookups ms := by
  have hdevice : o.deviceOf b = o.deviceOf a := by
    funext m
    simp only [deviceOf, hdevices]
  have hrepairs : o.repairs b = o.repairs a := by
    funext lookups m
    simp only [repairs, Archive.dangles, htasks]
  have hvisit : o.visit b = o.visit a := by
    funext lookups m
    simp only [visit, hdevice, hrepairs]
  have hafter : o.lookupsAfter b = o.lookupsAfter a := by
    unfold lookupsAfter
    rw [o.asksTask_congr hdevices]
  induction ms generalizing lookups with
  | nil => rfl
  | cons m ms ih =>
      rw [visits, visits, hvisit, hafter, ih]

/-- Outages of pages and results play no part in visits, and without others it does not matter how
many tasks were looked up. -/
theorem visits_eq_sound (page : Option String → Option StoreError)
    (result : Nat → Option StoreError) (a : Archive) (lookups : Nat) (ms : List Measurement) :
    ({ page, result } : Outages).visits a lookups ms = ({} : Outages).visits a 0 ms := by
  have hany : ∀ n, ({ page, result } : Outages).visits a lookups ms =
      ({} : Outages).visits a n ms := by
    intro n
    induction ms generalizing lookups n with
    | nil => rfl
    | cons m ms ih =>
        rw [visits, visits, ih]
        rfl
  exact hany 0

/-- The visits by their places, each with the number of look-ups before it. -/
theorem visits_eq_map (a : Archive) (lookups : Nat) (ms : List Measurement) :
    o.visits a lookups ms = ms.zipIdx.map fun p =>
      (p.1, o.visit a (lookups + (ms.take p.2).countP (o.asksTask a)) p.1) := by
  induction ms generalizing lookups with
  | nil => rfl
  | cons m ms ih =>
      have hcount : ∀ j, o.lookupsAfter a lookups m + (ms.take j).countP (o.asksTask a) =
          lookups + ((m :: ms).take (j + 1)).countP (o.asksTask a) := by
        intro j
        rw [List.take_succ_cons, List.countP_cons, lookupsAfter]
        split <;> omega
      rw [visits, ih, List.zipIdx_cons, List.map_cons, List.zipIdx_succ, List.map_map]
      congr 1
      apply List.map_congr_left
      intro p _
      show (p.1, o.visit a (_ + _) p.1) = (p.1, o.visit a (_ + _) p.1)
      rw [hcount]

end Outages

/-! ## The archive after visits

Visits change measurements, and of these only the tasks. So the list of a query keeps its order, and
a record that was visited is still in its place. -/

namespace Archive

variable (a : Archive) (vs : List (Measurement × Visit))

/-- A visit touches nothing but the measurement. -/
theorem visit_frame (m : Measurement) (v : Visit) :
    (a.visit m v).first = a.first ∧ (a.visit m v).devices = a.devices ∧
      (a.visit m v).tasks = a.tasks ∧ (a.visit m v).summaries = a.summaries ∧
      (a.visit m v).entries = a.entries := by
  unfold visit
  split <;> exact ⟨rfl, rfl, rfl, rfl, rfl⟩

theorem afterVisits_frame :
    (a.afterVisits vs).first = a.first ∧ (a.afterVisits vs).devices = a.devices ∧
      (a.afterVisits vs).tasks = a.tasks ∧ (a.afterVisits vs).summaries = a.summaries ∧
      (a.afterVisits vs).entries = a.entries := by
  unfold afterVisits
  induction vs generalizing a with
  | nil => exact ⟨rfl, rfl, rfl, rfl, rfl⟩
  | cons p vs ih =>
      obtain ⟨h₁, h₂, h₃, h₄, h₅⟩ := ih (a.visit p.1 p.2)
      obtain ⟨g₁, g₂, g₃, g₄, g₅⟩ := a.visit_frame p.1 p.2
      exact ⟨h₁.trans g₁, h₂.trans g₂, h₃.trans g₃, h₄.trans g₄, h₅.trans g₅⟩

/-- A visit takes no measurement away. -/
theorem contains_visit {id : MeasurementId} (m : Measurement) (v : Visit)
    (h : a.measurements.contains id = true) : (a.visit m v).measurements.contains id = true := by
  unfold visit
  split
  · show (a.measurements.insert _ _).contains id = true
    rw [OrderedMap.contains_insert, h, Bool.or_true]
  · exact h
  · exact h

theorem find?_visit (m : Measurement) (v : Visit) (id : MeasurementId) :
    (a.visit m v).measurements.find? id =
      if id = m.id ∧ v.isRepaired = true then some m.withoutTask else a.measurements.find? id := by
  rcases v with _ | ⟨device, _ | _⟩
  · simp [visit, Visit.isRepaired]
  · simp [visit, Visit.isRepaired]
  · show (a.measurements.insert m.id m.withoutTask).find? id = _
    rw [OrderedMap.find?_insert]
    simp [Visit.isRepaired]

theorem find?_afterVisits_of_not_mem {id : MeasurementId} (h : id ∉ vs.map (·.1.id)) :
    (a.afterVisits vs).measurements.find? id = a.measurements.find? id := by
  unfold afterVisits
  induction vs generalizing a with
  | nil => rfl
  | cons p vs ih =>
      rw [List.map_cons, List.mem_cons, not_or] at h
      have hstay : (a.visit p.1 p.2).measurements.find? id = a.measurements.find? id := by
        rw [find?_visit, if_neg fun hboth => h.1 hboth.1]
      exact (ih _ h.2).trans hstay

/-- **After visits to distinct measurements**, a measurement is as it was but for its task, and
without that just if it was cleared. -/
theorem find?_afterVisits {a : Archive} {vs : List (Measurement × Visit)}
    (h : (vs.map (·.1.id)).Nodup) (hstored : ∀ p ∈ vs, a.measurements.find? p.1.id = some p.1)
    {p : Measurement × Visit} (hp : p ∈ vs) :
    (a.afterVisits vs).measurements.find? p.1.id =
      some (if p.2.isRepaired then p.1.withoutTask else p.1) := by
  induction vs generalizing a with
  | nil => exact absurd hp List.not_mem_nil
  | cons q vs ih =>
      obtain ⟨hq, hrest⟩ := List.nodup_cons.1 h
      show ((a.visit q.1 q.2).afterVisits vs).measurements.find? p.1.id = _
      rcases List.mem_cons.1 hp with rfl | hp
      · rw [find?_afterVisits_of_not_mem _ _ hq, find?_visit, hstored p List.mem_cons_self]
        cases p.2.isRepaired <;> simp
      -- The first visit is to another measurement, and leaves this one as it was stored.
      · apply ih hrest _ hp
        intro x hx
        have hne : x.1.id ≠ q.1.id := fun heq => hq (List.mem_map.2 ⟨x, hx, heq⟩)
        rw [find?_visit, if_neg fun hboth => hne hboth.1]
        exact hstored x (List.mem_cons_of_mem _ hx)

/-- What is listed after a measurement stays as it is when that is visited. -/
theorem listed_visit {a : Archive} {q : Query} {m : Measurement} {done rest : List Measurement}
    (h : a.listed q = done ++ m :: rest) (v : Visit) :
    ∃ done', done'.length = done.length + 1 ∧ (a.visit m v).listed q = done' ++ rest := by
  unfold visit
  split
  · refine ⟨done.map (clearTask m.id) ++ [m.withoutTask], by simp, ?_⟩
    rw [listed_after_clearing h]
    simp
  · exact ⟨done ++ [m], by simp, by simpa using h⟩
  · exact ⟨done ++ [m], by simp, by simpa using h⟩

end Archive

namespace Run

/-! ## Observing

Observing a record makes its visit (`Run.observe_outcome`). Over a whole stream this gives the tally
and the archive after the visits to all records that were read. -/

variable (o : Outages) (r : Run)

/-- A task that is gone is cleared in the store, if neither the look-up nor the write fails. In the
measurement at hand it is cleared if the look-up does not fail. -/
theorem repairTask_outcome (m : Measurement) (s : Outages.State)
    (h : s.archive.measurements.contains m.id = true) :
    ∃ answer : Except StoreError Bool, ∃ n : Measurement,
      (m.repairTask o.store).outcome s =
        (⟨n, answer⟩, ⟨if o.repairs s.archive s.lookups m then
            s.archive.insertMeasurement m.withoutTask else s.archive,
          if m.task.isSome then s.lookups + 1 else s.lookups⟩) ∧
      (n = m ∨ n = m.withoutTask) ∧
      (answer.toOption = some true ↔ o.repairs s.archive s.lookups m = true) := by
  -- The cases follow the repair: no task, a look-up that fails, a task that is there, and then a
  -- write that fails or not. Only in the last case something changes.
  unfold Measurement.repairTask Outages.repairs Archive.dangles
  cases htask : m.task with
  | none => exact ⟨.ok false, m, rfl, .inl rfl, by simp [Except.toOption]⟩
  | some task =>
      simp only [Action.outcome_bind, Action.outcome_ofOp, o.task_eq]
      cases hlookup : o.task s.lookups with
      | some e => exact ⟨.error e, m, by simp, .inl rfl, by simp [Except.toOption]⟩
      | none =>
          cases hfound : s.archive.tasks.find? task with
          | some t =>
              exact ⟨.ok false, m, by simp [OrderedMap.contains, hfound], .inl rfl,
                by simp [Except.toOption, OrderedMap.contains, hfound]⟩
          | none =>
              have hwrite := o.persistMeasurement_eq (m := m.withoutTask)
                (s := ⟨s.archive, s.lookups + 1⟩) h
              simp only [Action.outcome_bind, Action.outcome_log, Action.outcome_ofOp, hwrite]
              cases hfault : o.measurement m.id with
              | some e =>
                  exact ⟨.error e, m.withoutTask, by simp [hfault, Except.map], .inr rfl,
                    by simp [Except.toOption]⟩
              | none =>
                  exact ⟨.ok true, m.withoutTask,
                    by simp [OrderedMap.contains, hfound, hfault, Except.map], .inr rfl,
                    by simp [Except.toOption, OrderedMap.contains, hfound]⟩

theorem noteRepair_outcome {σ : Type} (c : LogContext) (t : Tally) (answer : Except StoreError Bool)
    (s : σ) :
    (noteRepair c t answer).outcome s =
      (if answer.toOption = some true then t.repair else t, s) := by
  rcases answer with e | _ | _ <;> rfl

/-- **Observing a record is a visit**: what is counted with it and what it does to the archive. -/
theorem observe_outcome (t : Tally) (m : Measurement) (s : Outages.State)
    (h : s.archive.measurements.contains m.id = true) :
    (r.observe o.store t m).outcome s =
      (t.visit r m (o.visit s.archive s.lookups m),
        ⟨s.archive.visit m (o.visit s.archive s.lookups m),
          o.lookupsAfter s.archive s.lookups m⟩) := by
  unfold observe Outages.visit Outages.lookupsAfter Outages.asksTask
  simp only [Action.outcome_bind, Action.outcome_ofOp, o.device_eq]
  unfold Outages.deviceOf
  cases hfault : o.device m.device with
  | some e => rfl
  | none =>
      cases hdevice : s.archive.devices.find? m.device with
      | none => rfl
      | some device =>
          obtain ⟨answer, n, hrepair, hn, hanswer⟩ := repairTask_outcome o m s h
          simp only [Action.outcome_bind, hrepair, noteRepair_outcome, Action.outcome_logAll,
            Action.outcome_pure, hanswer]
          -- The record that is scored may have lost its task, which no score looks at.
          have hsame : n.SameButTask m := by
            rcases hn with rfl | rfl <;> rfl
          have hscore : ∀ t : Tally,
              t.score r.config r.window device n = t.score r.config r.window device m :=
            fun t => t.score_congr r device hsame
          rw [hscore]
          simp only [Tally.visit, Archive.visit, Option.isSome_some, Bool.true_and]
          cases o.repairs s.archive s.lookups m <;> rfl

/-- A record that is observed moves none of those after it. -/
theorem keepsRest_observe : KeepsRest Outages.State.archive r.query (r.observe o.store) := by
  intro t m s done rest hlist
  have hmem : m ∈ r.records s.archive := by
    rw [r.records_eq_listed, hlist]
    exact List.mem_append_right _ List.mem_cons_self
  have hstored := isStored_of_mem_records hmem
  have hstate := congrArg Prod.snd (r.observe_outcome o t m s hstored)
  show ∃ done', _ ∧ ((r.observe o.store t m).outcome s).2.archive.listed r.query = _
  rw [hstate]
  exact Archive.listed_visit hlist _

/-- Observing records in a row. -/
theorem foldlM_observe_outcome (t : Tally) (ms : List Measurement) (s : Outages.State)
    (h : ∀ m ∈ ms, s.archive.measurements.contains m.id = true) :
    (ms.foldlM (r.observe o.store) t).outcome s =
      ((o.visits s.archive s.lookups ms).foldl (fun t p => t.visit r p.1 p.2) t,
        o.visited s ms) := by
  induction ms generalizing t s with
  | nil => rfl
  | cons m ms ih =>
      have hm := r.observe_outcome o t m s (h m List.mem_cons_self)
      obtain ⟨-, hdevices, htasks, -, -⟩ :=
        s.archive.visit_frame m (o.visit s.archive s.lookups m)
      rw [List.foldlM_cons, Action.outcome_bind, hm, ih]
      -- The visits to come are the same: the devices and tasks are still those of the beginning.
      · have hcount : o.lookupsAfter s.archive s.lookups m + ms.countP (o.asksTask s.archive) =
            s.lookups + (m :: ms).countP (o.asksTask s.archive) := by
          rw [List.countP_cons, Outages.lookupsAfter]
          split <;> omega
        unfold Outages.visited
        rw [o.visits_congr hdevices htasks, o.asksTask_congr hdevices, ← hcount]
        rfl
      · intro n hn
        exact s.archive.contains_visit m _ (h n (List.mem_cons_of_mem _ hn))

/-- The cursors with which a run asks for the pages of its records. -/
def cursors (a : Archive) : List (Option String) := r.query.cursors a (max r.config.pageSize 1)

/-- **What a run makes of the records of an archive.** If all pages come, each record has its visit;
if a page does not, the run goes no further than it. -/
theorem collect_outcome (s : Outages.State) :
    let failure := (r.cursors s.archive).findSome? o.page
    ∃ k, (failure = none → (r.records s.archive).length ≤ k) ∧
      let ms := (r.records s.archive).take k
      (r.collect o.store).outcome s =
        (match failure with
          | none => .ok (Tally.ofVisits r (o.visits s.archive s.lookups ms))
          | some e => .error (.query e), o.visited s ms) := by
  intro failure
  obtain ⟨k, hk, heq⟩ := RecordStream.forEach_eq o.servesPages r.query r.config.pageSize
    (r.keepsRest_observe o) .initial s
  rw [← r.records_eq_listed] at hk heq
  refine ⟨k, hk, ?_⟩
  intro ms
  -- Looking at a record replaces it only where it is stored, as the records of a stream are.
  have hstored : ∀ m ∈ ms, s.archive.measurements.contains m.id = true :=
    fun m hm => isStored_of_mem_records (List.mem_of_mem_take hm)
  have heach : ((RecordStream.ofQuery r.query r.config.pageSize).forEach o.store
      (r.observe o.store) .initial).outcome s =
      ((Tally.ofVisits r (o.visits s.archive s.lookups ms), failure), o.visited s ms) := by
    unfold Action.outcome
    rw [heq]
    show Action.outcome (_ >>= _) s = _
    rw [Action.outcome_bind, r.foldlM_observe_outcome o .initial ms s hstored]
    rfl
  unfold collect
  rw [Attempt.outcome_bind_ok (Attempt.outcome_of _ _), heach]
  clear_value failure
  cases failure with
  | none => rfl
  | some e => rfl

end Run

end NetAudit
