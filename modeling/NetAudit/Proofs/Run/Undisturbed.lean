import NetAudit.Proofs.Run.InStep

/-!
# Runs do not disturb each other

Runs take turns on one archive, in any order. Each of them succeeds with the report that it gives
alone, but for names and for the number of repairs, and stores the same results under summaries of
its own. In the end the tasks are cleared that runs clear which are made one after the other:
`Together.undisturbed`.

The proof compares a schedule with the same schedule without the turns of all runs but one. For that
one run nothing differs but what `Run.View.Alike` leaves open, after every turn (`Together.kept`).
-/

namespace NetAudit

namespace Together

variable {ι : Type} [DecidableEq ι]

section Kept

/-- The turns of the run `i`, without those of others. -/
def alone (runs : ι → Run) (unscheduled : ι → List Window) (a : Archive) (schedule : List ι)
    (i : ι) : Together ι := after runs unscheduled a (schedule.filter (· = i))

/-- What is kept with every turn. -/
structure Kept (runs : ι → Run) (unscheduled : ι → List Window) (a : Archive) (schedule : List ι)
    (s : Together ι) : Prop where
  /-- Each run has come as far as it comes alone. -/
  alike : ∀ i, ((alone runs unscheduled a schedule i).view i).Alike (s.view i)
  grows : a.GrowsTo s.archive
  /-- What was cleared was cleared by a run that does so alone. -/
  cleared : ∀ id, s.archive.measurements.find? id = a.measurements.find? id ∨
    ∃ i, s.archive.measurements.find? id =
      (alone runs unscheduled a schedule i).archive.measurements.find? id
  summaries : s.archive.summaries = a.summaries ++ s.summaries.map (·.2)
  entries : s.archive.entries = a.entries ++ s.entries.map (·.2)
  /-- Only who has had a turn has stored anything. -/
  storedSummaries : ∀ row ∈ s.summaries, row.1 ∈ schedule
  storedEntries : ∀ row ∈ s.entries, row.1 ∈ schedule

variable {runs : ι → Run} {unscheduled : ι → List Window} {a : Archive} {schedule : List ι}
  {s : Together ι} {i j : ι}

theorem alone_concat_self (schedule : List ι) (i : ι) :
    alone runs unscheduled a (schedule ++ [i]) i =
      (alone runs unscheduled a schedule i).turn runs unscheduled i := by
  unfold alone
  rw [← after_concat]
  simp

theorem alone_concat_of_ne (h : j ≠ i) (schedule : List ι) :
    alone runs unscheduled a (schedule ++ [i]) j = alone runs unscheduled a schedule j := by
  unfold alone
  simp [h.symm]

/-- A turn of the run `j` keeps what is said of the schedule before it. -/
theorem Kept.turn (h : Kept runs unscheduled a schedule s) (j : ι) :
    Kept runs unscheduled a (schedule ++ [j]) (s.turn runs unscheduled j) := by
  have hstep := (h.alike j).take (runs j) (unscheduled j)
  rw [← view_turn_self, ← view_turn_self, ← alone_concat_self] at hstep
  have hgrow : s.archive.GrowsTo (s.turn runs unscheduled j).archive := hstep.grow.right
  constructor
  case alike =>
    intro i
    by_cases hij : i = j
    · rw [hij]
      exact hstep.alike
    · rw [alone_concat_of_ne hij, view_turn_of_ne hij]
      exact (h.alike i).disturb hgrow
  case grows => exact h.grows.trans hgrow
  case cleared =>
    intro id
    rcases hstep.grow.together id with ⟨halone, hsame⟩ | hboth
    · -- The turn leaves the measurement as it was, here and for the run alone.
      show (s.turn runs unscheduled j).archive.measurements.find? id = _ ∨ _
      have hsame : (s.turn runs unscheduled j).archive.measurements.find? id =
        s.archive.measurements.find? id := hsame
      rw [hsame]
      refine (h.cleared id).imp_right ?_
      rintro ⟨i, hi⟩
      refine ⟨i, hi.trans ?_⟩
      by_cases hij : i = j
      · rw [hij]
        exact halone.symm
      · rw [alone_concat_of_ne hij]
    · exact .inr ⟨j, hboth⟩
  case summaries =>
    rw [hgrow.summaries_since, h.summaries]
    simp [Together.turn, Function.comp_def]
  case entries =>
    rw [hgrow.entries_since, h.entries]
    simp [Together.turn, Function.comp_def]
  case storedSummaries => exact mem_turns_note h.storedSummaries j _
  case storedEntries => exact mem_turns_note h.storedEntries j _

variable (runs unscheduled) in
theorem kept (a : Archive) (schedule : List ι) :
    Kept runs unscheduled a schedule (after runs unscheduled a schedule) := by
  induction schedule using List.reverseRecOn with
  | nil =>
      exact ⟨fun i => .start a, .refl a, fun id => .inl rfl, (List.append_nil _).symm,
        (List.append_nil _).symm, fun _ h => absurd h List.not_mem_nil,
        fun _ h => absurd h List.not_mem_nil⟩
  | append_singleton schedule j ih =>
      rw [after_concat]
      exact ih.turn j

/-! ## When a run is over

A run that is over has seen all it ever sees. What is said of views that are alike then becomes what
is said of its report and of its results. -/

theorem alone_eq_replicate (schedule : List ι) (i : ι) :
    alone runs unscheduled a schedule i =
      after runs unscheduled a (List.replicate (schedule.count i) i) := by
  rw [alone, List.filter_eq]

/-- Alone, the run has stored what stands behind the tables of the beginning. -/
theorem batch_alone (schedule : List ι) (i : ι) :
    (alone runs unscheduled a schedule i).batch i =
      a.since (alone runs unscheduled a schedule i).archive := by
  have h := kept runs unscheduled a (schedule.filter (· = i))
  have hown : ∀ j ∈ schedule.filter (· = i), j = i :=
    fun j hj => by simpa using List.of_mem_filter hj
  have hsummaries := ownRows_of_forall fun row hrow => hown _ (h.storedSummaries row hrow)
  have hentries := ownRows_of_forall fun row hrow => hown _ (h.storedEntries row hrow)
  unfold alone batch Archive.since
  rw [hsummaries, hentries, h.summaries, h.entries, List.drop_left, List.drop_left]

/-- **If a run is over among others, it is over alone**, and it tells the same. -/
theorem Kept.of_finished (h : Kept runs unscheduled a schedule s) {answer : Except RunError Report}
    (hover : s.progress i = .finished answer) :
    let d := ((runs i).execute Archive.store (unscheduled i)).perform a
    (alone runs unscheduled a schedule i).archive = d.state ∧ Run.told answer = Run.told d.value ∧
      (a.since d.state).SameButNames (s.batch i) := by
  have halike := h.alike i
  have hresults := halike.results
  have hprogress : Run.Progress.Alike _ _ _ _ ((alone runs unscheduled a schedule i).progress i)
    (s.progress i) := halike.progress
  rw [hover] at hprogress
  generalize hp : (alone runs unscheduled a schedule i).progress i = p at hprogress
  cases hprogress with
  | finished htold =>
      rw [alone_eq_replicate] at hp
      obtain ⟨hvalue, hstate⟩ := after_alone hp
      rw [← alone_eq_replicate] at hstate
      refine ⟨hstate, ?_, ?_⟩
      · rw [htold, hvalue]
      · rw [← hstate, ← batch_alone]
        exact hresults

/-- What it tells is a report. -/
theorem Kept.exists_report (h : Kept runs unscheduled a schedule s)
    {answer : Except RunError Report} (hover : s.progress i = .finished answer) :
    let d := ((runs i).execute Archive.store (unscheduled i)).perform a
    ∃ rep rep', answer = .ok rep ∧ d.value = .ok rep' ∧ rep.run = rep'.run ∧
      rep.anonymous = rep'.anonymous := by
  intro d
  have hvalue : d.value = .ok ((runs i).reportOn a (unscheduled i)) :=
    ((runs i).perform_execute a (unscheduled i)).1
  obtain ⟨-, htold, -⟩ := h.of_finished hover
  rw [hvalue] at htold
  cases answer with
  | error e => cases htold
  | ok rep =>
      obtain ⟨hrun, hrest⟩ := Prod.mk.inj (Except.ok.inj htold)
      exact ⟨rep, _, rfl, hvalue, hrun, hrest⟩

/-- **Runs that are all over have cleared the same tasks** in whatever order they took turns. -/
theorem Kept.clearsTo {schedule' : List ι} {s' : Together ι}
    (h : Kept runs unscheduled a schedule s) (h' : Kept runs unscheduled a schedule' s')
    (hover : ∀ i, ∃ answer, s.progress i = .finished answer)
    (hover' : ∀ i, ∃ answer, s'.progress i = .finished answer) : s.archive.ClearsTo s'.archive := by
  have hsame : s'.archive.devices = s.archive.devices ∧ s'.archive.tasks = s.archive.tasks :=
    ⟨h'.grows.clears.devices.trans h.grows.clears.devices.symm,
      h'.grows.clears.tasks.trans h.grows.clears.tasks.symm⟩
  refine ⟨hsame.1, hsame.2, fun id => ?_⟩
  rcases h.cleared id with horigin | ⟨i, hi⟩
  · rw [horigin]
    exact h'.grows.clears.measurements id
  · obtain ⟨answer, hanswer⟩ := hover i
    obtain ⟨answer', hanswer'⟩ := hover' i
    obtain ⟨hstate, -⟩ := h.of_finished hanswer
    obtain ⟨hstate', -⟩ := h'.of_finished hanswer'
    have hclears : (alone runs unscheduled a schedule' i).archive.ClearsTo s'.archive :=
      (h'.alike i).clears
    rw [hi, hstate, ← hstate']
    exact hclears.measurements id

end Kept

/-! ## All of it

`Together.Undisturbed` is the statement for one schedule. That each run comes to its end is said
apart, as it needs enough turns. -/

/-- What becomes of runs that take turns on the archive `a`. -/
structure Undisturbed (runs : ι → Run) (unscheduled : ι → List Window) (a : Archive)
    (s : Together ι) : Prop where
  /-- The tables are those of the beginning, and behind them what the runs have stored. -/
  summaries : s.archive.summaries = a.summaries ++ s.summaries.map (·.2)
  entries : s.archive.entries = a.entries ++ s.entries.map (·.2)
  /-- Entries stand under summaries of their own run. -/
  own : ∀ i, ∀ row ∈ (s.batch i).entries, ∃ x ∈ (s.batch i).summaries, x.id = row.value.summary
  /-- If all names of summaries are distinct, entries stand under no summary of another run. -/
  apart : (s.archive.summaries.map (·.id)).Nodup → ∀ i, ∀ row ∈ (s.batch i).entries,
    ∀ x ∈ s.archive.summaries, x.id = row.value.summary → x ∈ (s.batch i).summaries
  /-- A run that is over has succeeded, as it does alone. -/
  alike : ∀ i answer, s.progress i = .finished answer →
    let d := ((runs i).execute Archive.store (unscheduled i)).perform a
    ∃ rep rep', answer = .ok rep ∧ d.value = .ok rep' ∧ rep.run = rep'.run ∧
      rep.anonymous = rep'.anonymous ∧ (a.since d.state).SameButNames (s.batch i)
  /-- When all are over, the measurements are those after the runs one by one, in any order. -/
  measurements : (∀ i, ∃ answer, s.progress i = .finished answer) → ∀ order : List ι, order.Nodup →
    (∀ i, i ∈ order) →
      s.archive.measurements = (oneByOne runs unscheduled a order).measurements

/-- **Runs do not disturb each other**, whatever the order of their turns is, and with enough turns
each of them is over. -/
theorem undisturbed (runs : ι → Run) (unscheduled : ι → List Window) (a : Archive) :
    (∀ schedule, Undisturbed runs unscheduled a (after runs unscheduled a schedule)) ∧
      ∃ turns : ι → Nat, ∀ schedule i, turns i ≤ schedule.count i →
        ∃ answer, (after runs unscheduled a schedule).progress i = .finished answer := by
  constructor
  · intro schedule
    have h := kept runs unscheduled a schedule
    have hown : ∀ i, ∀ row ∈ ((after runs unscheduled a schedule).batch i).entries,
        ∃ x ∈ ((after runs unscheduled a schedule).batch i).summaries, x.id = row.value.summary :=
      fun i row hrow => (h.alike i).results.exists_summary hrow
    constructor
    case summaries => exact h.summaries
    case entries => exact h.entries
    case own => exact hown
    case apart =>
      intro hnames i row hrow x hx hid
      obtain ⟨own, hmem, hname⟩ := hown i row hrow
      -- The summary of that name in the batch is the only one of that name at all.
      obtain rfl : x = own :=
        List.inj_on_of_nodup_map hnames hx ((h.alike i).stored' hmem) (hid.trans hname.symm)
      exact hmem
    case alike =>
      intro i answer hover
      obtain ⟨rep, rep', hrep, hrep', hrun, hrest⟩ := h.exists_report hover
      obtain ⟨-, -, hresults⟩ := h.of_finished hover
      exact ⟨rep, rep', hrep, hrep', hrun, hrest, hresults⟩
    case measurements =>
      -- Runs one by one are a schedule too, and two schedules after which all runs are over have
      -- cleared the same tasks.
      intro hover order hnodup hall
      obtain ⟨schedule', harchive, hover', -⟩ :=
        exists_oneByOne runs unscheduled a hnodup
      have h' := kept runs unscheduled a schedule'
      rw [← harchive]
      exact (h.clearsTo h' hover fun i => hover' i (hall i)).antisymm
        (h'.clearsTo h (fun i => hover' i (hall i)) hover)
  · -- The turns that a run needs alone are enough: among others it is as far as it is alone.
    choose turns hturns using
      exists_after_alone_over runs unscheduled a
    refine ⟨turns, fun schedule i hi => ?_⟩
    obtain ⟨answer, hanswer⟩ := hturns i _ hi
    have h := kept runs unscheduled a schedule
    have hprogress : Run.Progress.Alike _ _ _ _ ((alone runs unscheduled a schedule i).progress i)
      ((after runs unscheduled a schedule).progress i) := (h.alike i).progress
    rw [alone_eq_replicate, hanswer] at hprogress
    generalize (after runs unscheduled a schedule).progress i = p at hprogress
    cases hprogress with
    | finished htold => exact ⟨_, rfl⟩

end Together

end NetAudit
