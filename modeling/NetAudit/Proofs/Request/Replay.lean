import NetAudit.Proofs.Calendar.Texts
import NetAudit.Proofs.Request.Effects
import NetAudit.Proofs.Windows.Chosen
import NetAudit.Proofs.Windows.Moved
import NetAudit.Store.Archive

/-!
# Jobs that are worked off

A job holds the window of a later day, and whoever works it off asks for that window in writing. The
text of a bound names the bound again if its year is a plain one, so the window of the job is what
the worker's request is about (`RunRequest.replays_job`).

Three things stand in the way of a worker, and only these: a bound whose year is not plain, bounds
that a leap second has brought out of order, and a present day without a day before it.
-/

namespace NetAudit

open Calendar

variable {σ κ ν : Type}

/-! ## Windows in writing

A bound is written down with its date and its time of day. A plain year is one with four digits,
which every text of an instant can be read back with. -/

namespace Window

variable {t : Instant} {s : String}

theorem boundOr_of_mem_forms (h : s ∈ t.forms) (otherwise : Instant) :
    boundOr (some s) otherwise =
      if t.HasPlainYear then .ok t else .error (.badTimestamp s .unexpected) := by
  unfold boundOr
  simp only [t.isBlankText_of_mem_forms h, Bool.false_eq_true, if_false]
  rw [bound?, t.ofTimestamp?_of_mem_forms h]
  by_cases hyear : t.HasPlainYear
  · rw [if_pos hyear, if_pos hyear]
  · rw [if_neg hyear, if_neg hyear]

section Bounds

variable {start stop : Option String} {now : Instant}

theorem ofBounds?_eq {day : Window} (hday : yesterday now = .returned day) :
    ofBounds? start stop now = .returned
      ((boundOr start day.start).bind fun t => (boundOr stop day.stop).bind (between? t)) := by
  unfold ofBounds?
  rw [hday]
  rfl

/-- A window that a caller gets has its bounds in order. -/
theorem lt_of_ofBounds? {w : Window} (h : ofBounds? start stop now = .returned (.ok w)) :
    w.start < w.stop := by
  obtain ⟨day, -, -, -, hlt⟩ := ofBounds?_eq_ok_iff.1 h
  exact hlt

end Bounds

/-- On later days, the bounds of a window stay in order, but for a leap second at its end: that ends
up in the second before it. -/
theorem lt_of_addDays? {w v : Window} (h : w.start < w.stop)
    (hleap : w.stop.isLeap = true → w.start.second < w.stop.second) {day : Nat} (hpos : 0 < day)
    (hday : w.addDays? day = .ok v) : v.start < v.stop := by
  rw [lt_iff_not_foldsBack h hpos hday]
  rintro ⟨-, hstop, hsecond, -⟩
  have hlt := hleap hstop
  omega

end Window

/-! ## Requests that name windows

A request that names both bounds is about that window on any day but the first one, where a request
panics before it looks at its bounds. -/

/-- The request names the window in writing, each of its bounds in either form. -/
structure RunRequest.Names (p : RunRequest) (w : Window) : Prop where
  start : ∃ s ∈ w.start.forms, p.start = some s
  stop : ∃ s ∈ w.stop.forms, p.stop = some s

/-- At the present instant, the window that a request names is found: it is the window of the
request if both years are plain, and a text of the request is refused if not. -/
structure RunRequest.Finds (p : RunRequest) (now : Instant) (w : Window) : Prop where
  found : w.start.HasPlainYear → w.stop.HasPlainYear → p.window? now = .returned (.ok w)
  refused : ¬(w.start.HasPlainYear ∧ w.stop.HasPlainYear) →
    ∃ s, (p.start = some s ∨ p.stop = some s) ∧
      p.window? now = .returned (.error (.badTimestamp s .unexpected))

theorem RunRequest.Names.finds {p : RunRequest} {w : Window} (h : p.Names w)
    (hlt : w.start < w.stop) {now : Instant} {day : Window}
    (hday : Window.yesterday now = .returned day) : p.Finds now w := by
  obtain ⟨s, hs, hstart⟩ := h.start
  obtain ⟨e, he, hstop⟩ := h.stop
  have hwindow : p.window? now = .returned
      ((Window.boundOr (some s) day.start).bind fun t =>
        (Window.boundOr (some e) day.stop).bind (Window.between? t)) := by
    rw [RunRequest.window?, hstart, hstop, Window.ofBounds?_eq hday]
  rw [Window.boundOr_of_mem_forms hs, Window.boundOr_of_mem_forms he] at hwindow
  -- The start is read first: if its text is bad, that of the end is not looked at.
  constructor
  · intro hfirst hlast
    rw [hwindow, if_pos hfirst, if_pos hlast]
    exact congrArg Ending.returned (if_pos hlt)
  · intro hplain
    by_cases hfirst : w.start.HasPlainYear
    · have hlast : ¬w.stop.HasPlainYear := fun hlast => hplain ⟨hfirst, hlast⟩
      refine ⟨e, .inr hstop, ?_⟩
      rw [hwindow, if_pos hfirst, if_neg hlast]
      rfl
    · refine ⟨s, .inl hstart, ?_⟩
      rw [hwindow, if_neg hfirst]
      rfl

/-! ## Jobs

The jobs of a request are its offers to the queue. Each one holds the window of a day that the
calendar has. -/

namespace Setting

variable (x : Setting σ κ ν) (q : RunRequest)

/-- The jobs that a request offers to the queue. -/
def jobs : List Job := (x.answer q).2.queue.2.map (·.1)

variable {x q}

theorem jobs_of_runs {r : Run} (h : x.Runs q r) :
    x.jobs q = (r.window.daysFrom 1 (q.iterations - 1)).map .ofWindow := by
  have hoffers := congrArg (List.map Job.ofWindow)
    (x.queue.map_fst_offers x.world.queue (r.window.daysFrom 1 (q.iterations - 1)))
  rw [List.map_map] at hoffers
  rw [jobs, ((x.course q).kept h).2, schedule, r.schedule_outcome, JobQueue.offered_noting,
    List.nil_append, List.map_map]
  exact hoffers

theorem jobs_of_not_runs (h : ∀ r, ¬x.Runs q r) : x.jobs q = [] := by
  rw [jobs, (x.course q).eq_start h]
  rfl

/-- **The jobs of a request** are those of its later days, if it does not ask for too many. -/
theorem mem_jobs_iff {w : Window} (hwindow : q.window? x.now = .returned (.ok w)) {job : Job} :
    job ∈ x.jobs q ↔ q.iterations ≤ x.config.maxIterations ∧
      ∃ day, 1 ≤ day ∧ day < q.iterations ∧ ∃ v, w.addDays? (day : Nat) = .ok v ∧
        job = .ofWindow v := by
  let r : Run :=
    { name := x.name, window := w, startedAt := x.now, limit := q.limit, config := x.config }
  have hrun : q.run? x.config x.now x.name = .returned (.ok r) :=
    RunRequest.run?_eq_of_window hwindow x.config x.name
  by_cases hmax : q.iterations ≤ x.config.maxIterations
  · rw [jobs_of_runs (r := r) ⟨hrun, hmax⟩, List.mem_map]
    simp only [Window.mem_daysFrom_iff, hmax, true_and]
    constructor
    · rintro ⟨v, ⟨day, hle, hlt, hday⟩, rfl⟩
      exact ⟨day, hle, by omega, v, hday, rfl⟩
    · rintro ⟨day, hle, hlt, v, hday, rfl⟩
      exact ⟨v, ⟨day, hle, by omega, hday⟩, rfl⟩
  · rw [jobs_of_not_runs fun r h => hmax h.2]
    simp [hmax]

end Setting

/-- **A job can be worked off from its text.** The window of a job that a request offers has its
bounds in order, unless that request both began in the second of a leap second and ended in the leap
second; and a request that names a window in order finds it, on any day that has a day before. -/
theorem RunRequest.replays_job (x : Setting σ κ ν) {q : RunRequest} {w : Window}
    (hwindow : q.window? x.now = .returned (.ok w)) {job : Job} (hjob : job ∈ x.jobs q) :
    ((w.stop.isLeap = true → w.start.second < w.stop.second) →
        job.windowStart < job.windowEnd) ∧
      (job.windowStart < job.windowEnd → ∀ (p : RunRequest) (now : Instant) (day : Window),
        p.Names job.window → Window.yesterday now = .returned day → p.Finds now job.window) := by
  constructor
  · intro hleap
    obtain ⟨-, day, hpos, -, v, hday, rfl⟩ := (Setting.mem_jobs_iff hwindow).1 hjob
    exact Window.lt_of_addDays? (Window.lt_of_ofBounds? hwindow) hleap hpos hday
  · intro hlt p now day hnames hday
    exact hnames.finds hlt hday

/-! ### Jobs at work

A request that starts in a leap second offers a job for the day after it. The job is worked off,
whichever of its two forms each bound has. -/

/-- The request of one who works off a job. -/
def Job.request (j : Job) : RunRequest where
  start := some j.windowStart.withOffset
  stop := some j.windowEnd.withOffset
  isWorker := true

/-- An empty archive, a queue that takes every job and a notifier that delivers every message, at
the beginning of 1970. -/
def Setting.idle : Setting Archive Unit Unit where
  store := Archive.store
  queue := ⟨fun _ _ => ⟨.ok (), (), []⟩⟩
  notifier := ⟨fun _ _ => ⟨.ok (), (), []⟩⟩
  world := ⟨default, (), ()⟩
  config := {}
  now := .epoch
  name := "first"

/-- The window of the next day is offered as a job. -/
theorem Setting.mem_jobs_of_next {x : Setting σ κ ν} {q : RunRequest} {w v : Window}
    (hwindow : q.window? x.now = .returned (.ok w)) (hday : w.addDays? 1 = .ok v)
    (hmax : q.iterations ≤ x.config.maxIterations) (hmore : 1 < q.iterations) :
    .ofWindow v ∈ x.jobs q :=
  (mem_jobs_iff hwindow).2 ⟨hmax, 1, Nat.le_refl 1, hmore, v, hday, rfl⟩

/-- A request for half a day from a leap second on, and for the day after it. -/
def RunRequest.outOfLeapSecond : RunRequest where
  start := some "2015-06-30T23:59:60.25Z"
  stop := some "2015-07-01T12:00:00Z"
  iterations := 2

/-- The window of that request. -/
def Window.outOfLeapSecond : Window where
  start := ⟨1435708799, 1250000000, by decide, by decide, by decide, by decide⟩
  stop := ⟨1435752000, 0, by decide, by decide, Instant.epoch.nano_lt, by decide⟩

/-- The job that it offers. -/
def Job.dayLater : Job where
  windowStart := ⟨1435795199, 250000000, by decide, by decide, by decide, by decide⟩
  windowEnd := ⟨1435838400, 0, by decide, by decide, Instant.epoch.nano_lt, by decide⟩
  remainingIterations := 1

theorem RunRequest.window?_outOfLeapSecond :
    outOfLeapSecond.window? .epoch = .returned (.ok .outOfLeapSecond) := by
  decide +kernel

theorem Job.dayLater_mem_jobs : dayLater ∈ Setting.idle.jobs .outOfLeapSecond :=
  Setting.mem_jobs_of_next (v := Job.dayLater.window) RunRequest.window?_outOfLeapSecond
    (by decide +kernel) (by decide) (by decide)

/-- A worker's request for that job. The forms of its bounds may differ. -/
def RunRequest.ofWorker : RunRequest where
  start := some "2015-07-01T23:59:59.250Z"
  stop := some "2015-07-02T12:00:00+00:00"
  isWorker := true

theorem RunRequest.replays_job_dayLater :
    Job.dayLater ∈ Setting.idle.jobs .outOfLeapSecond ∧ ofWorker.Names Job.dayLater.window ∧
      ofWorker.window? .epoch = .returned (.ok Job.dayLater.window) := by
  have hnames : ofWorker.Names Job.dayLater.window :=
    ⟨⟨_, by decide +kernel, rfl⟩, ⟨_, by decide +kernel, rfl⟩⟩
  obtain ⟨day, hday⟩ : ∃ day, Window.yesterday .epoch = .returned day := ⟨_, rfl⟩
  obtain ⟨hlt, hfinds⟩ :=
    replays_job Setting.idle window?_outOfLeapSecond Job.dayLater_mem_jobs
  have hfound := hfinds (hlt (by decide)) ofWorker .epoch day hnames hday
  exact ⟨Job.dayLater_mem_jobs, hnames, hfound.found (by decide) (by decide)⟩

/-! ### Jobs that nobody can work off

A job in the year 10000 has no text that is read back, a job that ends before it starts is no
window, and on the first day of the calendar no job is worked off at all. -/

/-- A request for the last day of the year 9999, up to noon, and for the day after it. -/
def RunRequest.overNewYear : RunRequest where
  start := some "9999-12-31T00:00:00Z"
  stop := some "9999-12-31T12:00:00Z"
  iterations := 2

/-- The window of that request. -/
def Window.overNewYear : Window where
  start := ⟨253402214400, 0, by decide, by decide, Instant.epoch.nano_lt, by decide⟩
  stop := ⟨253402257600, 0, by decide, by decide, Instant.epoch.nano_lt, by decide⟩

/-- The job of the first day of the year 10000. -/
def Job.newYear : Job where
  windowStart := ⟨253402300800, 0, by decide, by decide, Instant.epoch.nano_lt, by decide⟩
  windowEnd := ⟨253402344000, 0, by decide, by decide, Instant.epoch.nano_lt, by decide⟩
  remainingIterations := 1

/-- A request for less than a second up to a leap second, and for the day after it. -/
def RunRequest.intoLeapSecond : RunRequest where
  start := some "2015-06-30T23:59:59.5Z"
  stop := some "2015-06-30T23:59:60.2Z"
  iterations := 2

/-- The window of that request. -/
def Window.upToLeapSecond : Window where
  start := ⟨1435708799, 500000000, by decide, by decide, by decide, by decide⟩
  stop := ⟨1435708799, 1200000000, by decide, by decide, by decide, by decide⟩

/-- The job of the day after the leap second: it ends before it starts. -/
def Job.afterLeapSecond : Job where
  windowStart := ⟨1435795199, 500000000, by decide, by decide, by decide, by decide⟩
  windowEnd := ⟨1435795199, 200000000, by decide, by decide, by decide, by decide⟩
  remainingIterations := 1

/-- There are jobs of each of the three sorts that cannot be worked off: one whose years are not
plain, one that a leap second has brought out of order, and any job on the first day. -/
theorem RunRequest.window?_fails_for_jobs :
    (Job.newYear ∈ Setting.idle.jobs .overNewYear ∧
        Job.newYear.request.window? .epoch =
          .returned (.error (.badTimestamp "+10000-01-01T00:00:00+00:00" .unexpected))) ∧
      (Job.afterLeapSecond ∈ Setting.idle.jobs .intoLeapSecond ∧
        Job.afterLeapSecond.request.window? .epoch = .returned
          (.error (.notBefore Job.afterLeapSecond.windowStart Job.afterLeapSecond.windowEnd))) ∧
      Job.dayLater ∈ Setting.idle.jobs .outOfLeapSecond ∧
        Job.dayLater.request.window? .first = .panicked := by
  have hyear : Job.newYear ∈ Setting.idle.jobs .overNewYear :=
    Setting.mem_jobs_of_next (w := .overNewYear) (v := Job.newYear.window) (by decide +kernel)
      (by decide +kernel) (by decide) (by decide)
  have hleap : Job.afterLeapSecond ∈ Setting.idle.jobs .intoLeapSecond :=
    Setting.mem_jobs_of_next (w := .upToLeapSecond) (v := Job.afterLeapSecond.window)
      (by decide +kernel) (by decide +kernel) (by decide) (by decide)
  exact ⟨⟨hyear, by decide +kernel⟩, ⟨hleap, by decide +kernel⟩, Job.dayLater_mem_jobs,
    by decide +kernel⟩

end NetAudit
