import NetAudit.Proofs.Action
import NetAudit.Proofs.Windows.Chosen
import NetAudit.Request

/-!
# Requests that are accepted

A request is looked at before anything is done for it. It may panic, as its window is chosen on the
present day; it may be turned down, for its window or for the number of its days; or it is accepted,
and asks for a run (`RunRequest.Runs`). What is done for a request that is accepted is
`RunRequest.handle_of_runs`; for any other, nothing is done (`RunRequest.handle_of_not_runs`).
-/

namespace NetAudit

open Calendar (Instant)

/-- The failure is that of a request which is turned down before anything is done. -/
def RunError.isRefusal : RunError → Bool
  | window _ | tooManyIterations _ _ => true
  | unsupported _ | query _ | persistence _ _ | notification _ => false

namespace RunRequest

variable {σ : Type} {q : RunRequest} {c : Config} {now : Instant} {name : String} {r : Run}

/-! ## The run of a request

A request asks for the run over its window, so to ask for the run panics where to choose the window
does. -/

theorem run?_eq_of_window {w : Window} (h : q.window? now = .returned (.ok w)) (c : Config)
    (name : String) :
    q.run? c now name =
      .returned (.ok { name, window := w, startedAt := now, limit := q.limit, config := c }) := by
  rw [run?, h]
  rfl

theorem run?_cases (q : RunRequest) (c : Config) (now : Instant) (name : String) :
    q.run? c now name = .panicked ∧ now.second < Calendar.firstSecond + 86400 ∨
      ¬now.second < Calendar.firstSecond + 86400 ∧
        ((∃ r, q.run? c now name = .returned (.ok r) ∧ r.config = c) ∨
          ∃ e : RunError, q.run? c now name = .returned (.error e) ∧ e.isRefusal = true) := by
  rw [← @Window.ofBounds?_eq_panicked_iff q.start q.stop]
  unfold run? window?
  rcases Window.ofBounds? q.start q.stop now with (e | w) | _
  · exact .inr ⟨nofun, .inr ⟨_, rfl, rfl⟩⟩
  · exact .inr ⟨nofun, .inl ⟨_, rfl, rfl⟩⟩
  · exact .inl ⟨rfl, rfl⟩

/-- The request is accepted, and asks for the run. -/
def Runs (q : RunRequest) (c : Config) (now : Instant) (name : String) (r : Run) : Prop :=
  q.run? c now name = .returned (.ok r) ∧ q.iterations ≤ c.maxIterations

theorem Runs.config_eq (h : q.Runs c now name r) : r.config = c := by
  rcases run?_cases q c now name with ⟨hrun, -⟩ | ⟨-, ⟨r', hrun, hconfig⟩ | ⟨e, hrun, -⟩⟩
  · cases hrun.symm.trans h.1
  · cases hrun.symm.trans h.1
    exact hconfig
  · cases hrun.symm.trans h.1

theorem Runs.eq {r' : Run} (h : q.Runs c now name r) (h' : q.Runs c now name r') : r = r' := by
  cases h.1.symm.trans h'.1
  rfl

/-! ## What is done for a request

The services are used only after the window and the number of days have been looked at. -/

theorem checkIterations_outcome (q : RunRequest) (r : Run) (s : σ) :
    (q.checkIterations r).outcome s =
      (if r.config.maxIterations < q.iterations then
        .error (.tooManyIterations q.iterations r.config.maxIterations) else .ok (), s) := by
  unfold checkIterations
  split <;> rfl

section Handle

variable (services : Services σ) (s : σ)

theorem handle_of_panicked (h : q.run? c now name = .panicked) :
    (q.handle services c now name).outcome s = (.panicked, s) := by
  rw [handle, h]
  rfl

theorem handle_of_returned {run : Except RunError Run} (h : q.run? c now name = .returned run) :
    (q.handle services c now name).outcome s =
      (.returned ((q.answer services run).outcome s).1, ((q.answer services run).outcome s).2) := by
  rw [handle, h]
  rfl

/-- **A request panics on the first day of the calendar**, and on that day only. -/
theorem handle_panicked_iff : ((q.handle services c now name).outcome s).1 = .panicked ↔
    now.second < Calendar.firstSecond + 86400 := by
  rcases run?_cases q c now name with ⟨hrun, hfirst⟩ | ⟨hlater, ⟨r, hrun, -⟩ | ⟨e, hrun, -⟩⟩
  · simp [handle_of_panicked services s hrun, hfirst]
  · simp [handle_of_returned services s hrun, hlater]
  · simp [handle_of_returned services s hrun, hlater]

variable {services s}

/-- **For a request that is accepted**, jobs are offered and the run is made; a report that this
gives is presented. -/
theorem handle_of_runs (h : q.Runs c now name r) :
    let schedule := (r.schedule services.queue q.iterations).outcome s
    let rest : Attempt σ RunResponse := do
      q.present services.notifier r (← r.execute services.store schedule.1.refused)
    (q.handle services c now name).outcome s =
      (.returned (rest.outcome schedule.2).1, (rest.outcome schedule.2).2) := by
  intro schedule rest
  have hcheck := checkIterations_outcome q r s
  rw [h.config_eq, if_neg (Nat.not_lt.2 h.2)] at hcheck
  have hrun : (Attempt.ofExcept (.ok r)).outcome s = (.ok r, s) := rfl
  have hanswer : (q.answer services (.ok r)).outcome s = rest.outcome schedule.2 := by
    unfold answer
    rw [Attempt.outcome_bind_ok hrun, Attempt.outcome_bind_ok hcheck,
      Attempt.outcome_bind_ok (Attempt.outcome_of _ s)]
  rw [handle_of_returned services s h.1, hanswer]

end Handle

/-- **A request that is not accepted does nothing**: it panics, or it is turned down. -/
theorem handle_of_not_runs (h : ∀ r, ¬q.Runs c now name r) :
    ∃ a : Ending (Except RunError RunResponse),
      (a = .panicked ∨ ∃ e : RunError, e.isRefusal = true ∧ a = .returned (.error e)) ∧
        ∀ {σ : Type} (services : Services σ) (s : σ),
          (q.handle services c now name).outcome s = (a, s) := by
  rcases run?_cases q c now name with ⟨hrun, -⟩ | ⟨-, ⟨r, hrun, hconfig⟩ | ⟨e, hrun, he⟩⟩
  · exact ⟨.panicked, .inl rfl, fun services s => handle_of_panicked services s hrun⟩
  · have hmax : c.maxIterations < q.iterations := Nat.lt_of_not_le fun hle => h r ⟨hrun, hle⟩
    refine ⟨.returned (.error (.tooManyIterations q.iterations c.maxIterations)),
      .inr ⟨_, rfl, rfl⟩, fun services s => ?_⟩
    have hcheck := checkIterations_outcome q r s
    rw [hconfig, if_pos hmax] at hcheck
    have hok : (Attempt.ofExcept (.ok r)).outcome s = (.ok r, s) := rfl
    rw [handle_of_returned services s hrun, answer, Attempt.outcome_bind_ok hok,
      Attempt.outcome_bind_error hcheck]
  · refine ⟨.returned (.error e), .inr ⟨e, he, rfl⟩, fun services s => ?_⟩
    have herror : (Attempt.ofExcept (.error e : Except RunError Run)).outcome s =
        (.error e, s) := rfl
    rw [handle_of_returned services s hrun, answer, Attempt.outcome_bind_error herror]

end RunRequest

end NetAudit
