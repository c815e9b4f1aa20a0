import NetAudit.Proofs.Request.Accepted
import NetAudit.Proofs.Run.Covered
import NetAudit.Proofs.Run.Followups

/-!
# Requests for several days

A request for a day and those after it leaves the later days to a queue. With the run over the first
day, the runs over the windows of these jobs cover all of the days, as the windows follow each other
without a gap: `RunRequest.handle_covers`.
-/

namespace NetAudit

open Calendar (Instant)

/-! ## Services on an archive and a queue

The services may work on any state of which an archive and a queue are parts, as long as the calls
do to these parts what they do to an archive and a queue. -/

/-- The store of the services is that of an archive, and their queue takes every job. Neither the
store nor the notifier touches the queue. -/
structure Services.Serves {σ : Type} (services : Services σ) (archive : σ → Archive)
    (jobs : σ → List Job) : Prop where
  store : services.store.Follows (fun s => (archive s, jobs s))
    (Archive.store.zoom Prod.fst fun a p => (a, p.2))
  accepts : services.queue.Accepts
  keeps : services.queue.Keeps jobs
  notifier : ∀ message s, jobs (services.notifier.send message s).state = jobs s

/-- Beside whatever else there is, a store works on its archive as on its own. -/
theorem Archive.store_follows_zoom (js : List Job) :
    Archive.store.Follows (fun a => (a, js)) (Archive.store.zoom Prod.fst fun a p => (a, p.2)) where
  query _ _ _ _ := rfl
  device _ _ := rfl
  task _ _ := rfl
  persistMeasurement _ _ := rfl
  persistSummary _ _ := rfl
  persistEntry _ _ := rfl
  pageBound _ := rfl

theorem Memory.serves : Memory.services.Serves archive jobs where
  store := {
    query := fun _ _ _ _ => rfl
    device := fun _ _ => rfl
    task := fun _ _ => rfl
    persistMeasurement := fun _ _ => rfl
    persistSummary := fun _ _ => rfl
    persistEntry := fun _ _ => rfl
    pageBound := fun _ => rfl }
  accepts _ _ := rfl
  keeps := keeps_jobs
  notifier _ _ := rfl

section Serves

variable {σ : Type} {services : Services σ} {archive : σ → Archive} {jobs : σ → List Job}

theorem Services.Serves.jobs_execute (h : services.Serves archive jobs) (r : Run)
    (unscheduled : List Window) (s : σ) :
    jobs ((r.execute services.store unscheduled).outcome s).2 = jobs s := by
  have hpair := (r.execute_follows h.store unscheduled).outcome_eq s
  have hframe := (r.execute_follows (Archive.store_follows_zoom (jobs s)) unscheduled).outcome_eq
    (archive s)
  exact congrArg (fun x => x.2.2) (hpair.symm.trans hframe)

theorem Services.Serves.jobs_present (h : services.Serves archive jobs) (q : RunRequest) (r : Run)
    (rep : Report) (s : σ) : jobs ((q.present services.notifier r rep).outcome s).2 = jobs s := by
  unfold RunRequest.present
  split
  · rfl
  · split
    · rfl
    · apply Attempt.frame_bind
      · apply Attempt.frame_bind
        · exact fun s => rfl
        · intro message
          apply Attempt.frame_bind
          · intro s
            rw [Attempt.outcome_ask]
            exact h.notifier message s
          · exact fun _ s => rfl
      · exact fun _ s => rfl

/-- **A request leaves a job for each of its later days**, as far as the calendar has them. -/
theorem RunRequest.jobs_handle (h : services.Serves archive jobs) {q : RunRequest} {c : Config}
    {now : Instant} {w : Window} (hwindow : q.window? now = .returned (.ok w))
    (hmax : q.iterations ≤ c.maxIterations) (name : String) (s : σ) :
    jobs (q.handle services c now name s).state =
      jobs s ++ (w.daysFrom 1 (q.iterations - 1)).map Job.ofWindow := by
  let r : Run := { name, window := w, startedAt := now, limit := q.limit, config := c }
  have hruns : q.Runs c now name r := ⟨run?_eq_of_window hwindow c name, hmax⟩
  have hschedule := r.schedule_outcome services.queue q.iterations s
  have hjobs := h.keeps.jobs_offered s (w.daysFrom 1 (q.iterations - 1))
  have hall : (services.queue.offers s (w.daysFrom 1 (q.iterations - 1))).filter (·.2) =
      (w.daysFrom 1 (q.iterations - 1)).map fun w => (w, true) := by
    rw [JobQueue.offers_of_accepts h.accepts, List.filter_eq_self]
    intro p hp
    obtain ⟨w, -, rfl⟩ := List.mem_map.1 hp
    rfl
  rw [hall, List.map_map] at hjobs
  show jobs ((q.handle services c now name).outcome s).2 = _
  rw [handle_of_runs hruns, hschedule]
  -- What is done after the jobs were offered leaves them alone.
  refine Eq.trans ?_ hjobs
  apply Attempt.frame_bind
  · exact h.jobs_execute r _
  · exact h.jobs_present q r

/-- **A request for several days covers them all.** The jobs that it leaves go on where its own
window ends, up to the end of the last day; and runs over these windows, in whatever order they are
made, share out the records of all the days. -/
theorem RunRequest.handle_covers (h : services.Serves archive jobs) {q : RunRequest} {c : Config}
    {now start stop last : Instant} (hwindow : q.window? now = .returned (.ok ⟨start, stop⟩))
    (hstop : start.addDays? 1 = some stop) (hpos : 1 ≤ q.iterations)
    (hmax : q.iterations ≤ c.maxIterations) (hlast : start.addDays? q.iterations = some last)
    (name : String) (s : σ) :
    ∃ js, jobs (q.handle services c now name s).state = jobs s ++ js ∧
      js.length = q.iterations - 1 ∧ (∀ j ∈ js, j.remainingIterations = 1) ∧
      Window.Tiles (⟨start, stop⟩ :: js.map Job.window) start last ∧
      ∀ rs : List Run, (rs.map (·.window)).Perm (⟨start, stop⟩ :: js.map Job.window) →
        Run.Covers rs start last := by
  have hend : start.addDays? (1 + (q.iterations - 1) : Nat) = some last := by
    rw [Nat.add_sub_cancel' hpos]
    exact hlast
  obtain ⟨hlength, htiles⟩ := Window.tiles_daysFrom hstop (t := stop) hstop hend
  -- A job keeps the window that it was made of.
  have hwindows : ((Window.daysFrom ⟨start, stop⟩ 1 (q.iterations - 1)).map Job.ofWindow).map
      Job.window = Window.daysFrom ⟨start, stop⟩ 1 (q.iterations - 1) := by
    rw [List.map_map]
    exact List.map_id _
  have hall : Window.Tiles (⟨start, stop⟩ ::
      ((Window.daysFrom ⟨start, stop⟩ 1 (q.iterations - 1)).map Job.ofWindow).map Job.window)
      start last := by
    rw [hwindows]
    exact .cons (w := ⟨start, stop⟩) (Instant.lt_of_addDays? Nat.one_pos hstop) htiles
  refine ⟨_, jobs_handle h hwindow hmax name s, ?_, ?_, hall, ?_⟩
  · rw [List.length_map, hlength]
  · intro j hj
    obtain ⟨w, -, rfl⟩ := List.mem_map.1 hj
    rfl
  · exact fun rs hrs => Run.covers_of_tiles hall hrs

end Serves

/-- A request for three days, the first of which begins with a leap second. -/
def RunRequest.fromLeapSecond : RunRequest where
  start := some "2016-12-31T23:59:60Z"
  stop := some "2017-01-01T23:59:59Z"
  iterations := 3

/-- Three days after the leap second. -/
def Calendar.Instant.threeDaysAfterLeapSecond : Instant :=
  ⟨1483487999, 0, by decide, by decide, epoch.nano_lt, by decide⟩

theorem RunRequest.window?_fromLeapSecond :
    fromLeapSecond.window? .epoch = .returned (.ok ⟨.leapSecond, .dayAfterLeapSecond⟩) := by
  decide +kernel

theorem RunRequest.handle_covers_fromLeapSecond :
    ∃ js, Memory.jobs (fromLeapSecond.handle Memory.services {} .epoch "first"
        (.ofArchive .ofTwoPings)).state = [] ++ js ∧
      js.length = 2 ∧ (∀ j ∈ js, j.remainingIterations = 1) ∧
      Window.Tiles (⟨.leapSecond, .dayAfterLeapSecond⟩ :: js.map Job.window) .leapSecond
        .threeDaysAfterLeapSecond ∧
      ∀ rs : List Run,
        (rs.map (·.window)).Perm (⟨.leapSecond, .dayAfterLeapSecond⟩ :: js.map Job.window) →
          Run.Covers rs .leapSecond .threeDaysAfterLeapSecond :=
  have hstop : Instant.leapSecond.addDays? 1 = some .dayAfterLeapSecond := by decide
  have hlast : Instant.leapSecond.addDays? 3 = some .threeDaysAfterLeapSecond := by decide
  RunRequest.handle_covers Memory.serves window?_fromLeapSecond hstop (by decide) (by decide) hlast
    "first" (.ofArchive .ofTwoPings)

end NetAudit
