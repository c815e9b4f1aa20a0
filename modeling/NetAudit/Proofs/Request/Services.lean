import NetAudit.Proofs.Request.Accepted
import NetAudit.Proofs.Request.Presentation
import NetAudit.Proofs.Run.Followups

/-!
# Requests to services that have nothing in common

A store, a queue and a notifier may each have a state of their own (`World`). A request then does to
each of them what it would do to that one alone: `RunRequest.handle_apart` takes it apart into a
schedule on the queue, a run on the store and a presentation on the notifier.

Each of these three uses one of the services only, so that it follows the same on that service
alone, as `Action.Follows` says.
-/

namespace NetAudit

open Calendar (Instant)

variable {σ ω α κ ν : Type}

/-! ## Queues that follow others

A schedule uses its queue by offering jobs to it, and by nothing else. -/

section Queue

variable {view : σ → ω} {queue : JobQueue σ} {ref : JobQueue ω}

theorem Run.offer_follows (h : ∀ job, (queue.enqueue job).Follows view (ref.enqueue job)) (r : Run)
    (w : Window) : (r.offer queue w).Follows view (r.offer ref w) := by
  refine Action.Relates.bind_eq (h (.ofWindow w)) fun answer => ?_
  cases answer with
  | ok _ => exact .bind_eq (.log rfl) fun _ => .pure rfl
  | error e => exact .bind_eq (.log rfl) fun _ => .pure rfl

/-- The schedule of a queue that follows another one is the schedule of that other queue. -/
theorem Run.schedule_follows (h : ∀ job, (queue.enqueue job).Follows view (ref.enqueue job))
    (r : Run) (iterations : Nat) :
    (r.schedule queue iterations).Follows view (r.schedule ref iterations) := by
  have hday : ∀ day t, (r.offerDay queue day t).Follows view (r.offerDay ref day t) := by
    intro day t
    unfold Run.offerDay
    split
    · exact .bind_eq (.log rfl) fun _ => .pure rfl
    · exact .bind_eq (r.offer_follows h _) fun _ => .pure rfl
  unfold Run.schedule
  split
  · exact .pure rfl
  · exact .bind_eq (.log rfl) fun _ => .bind_eq (.steps hday _ _ _) fun _ => .pure rfl

end Queue

/-! ## Services that have nothing in common

Each service acts on its own part of the world, and leaves the other two parts alone. -/

/-- A store, a queue and a notifier, each with a state of its own. -/
structure World (σ κ ν : Type) where
  store : σ
  queue : κ
  notifier : ν

namespace Services

/-- A store, a queue and a notifier as the services of one world. -/
def apart (store : Store σ) (queue : JobQueue κ) (notifier : Notifier ν) :
    Services (World σ κ ν) where
  store := store.zoom World.store fun s w => { w with store := s }
  queue := ⟨fun job => (queue.enqueue job).zoom World.queue fun k w => { w with queue := k }⟩
  notifier := ⟨fun message =>
    (notifier.send message).zoom World.notifier fun n w => { w with notifier := n }⟩

variable (store : Store σ) (queue : JobQueue κ) (notifier : Notifier ν)

/-- In any world, the store does what it does on its own. -/
theorem store_follows_apart (w : World σ κ ν) :
    store.Follows (fun s => { w with store := s }) (apart store queue notifier).store where
  query _ _ _ _ := rfl
  device _ _ := rfl
  task _ _ := rfl
  persistMeasurement _ _ := rfl
  persistSummary _ _ := rfl
  persistEntry _ _ := rfl
  pageBound _ := rfl

theorem execute_apart (r : Run) (unscheduled : List Window) (w : World σ κ ν) :
    (r.execute (apart store queue notifier).store unscheduled).outcome w =
      (((r.execute store unscheduled).outcome w.store).1,
        { w with store := ((r.execute store unscheduled).outcome w.store).2 }) :=
  (r.execute_follows (store_follows_apart store queue notifier w) unscheduled).outcome_eq w.store

theorem schedule_apart (r : Run) (iterations : Nat) (w : World σ κ ν) :
    (r.schedule (apart store queue notifier).queue iterations).outcome w =
      (((r.schedule queue iterations).outcome w.queue).1,
        { w with queue := ((r.schedule queue iterations).outcome w.queue).2 }) := by
  have hfollows : (r.schedule queue iterations).Follows (fun k => { w with queue := k })
      (r.schedule (apart store queue notifier).queue iterations) := by
    apply r.schedule_follows
    rintro job k _ rfl
    exact ⟨rfl, rfl, rfl⟩
  exact hfollows.outcome_eq w.queue

theorem present_apart (q : RunRequest) (r : Run) (rep : Report) (w : World σ κ ν) :
    (q.present (apart store queue notifier).notifier r rep).outcome w =
      (((q.present notifier r rep).outcome w.notifier).1,
        { w with notifier := ((q.present notifier r rep).outcome w.notifier).2 }) := by
  have hfollows : (q.present notifier r rep).Follows (fun n => { w with notifier := n })
      (q.present (apart store queue notifier).notifier r rep) := by
    apply q.present_follows
    rintro message n _ rfl
    exact ⟨rfl, rfl, rfl⟩
  exact hfollows.outcome_eq w.notifier

end Services

/-! ## What a request does

Only a request that is accepted reaches the services, and then it reaches each of them once: first
the queue, then the store, and the notifier only after a run that succeeded. -/

namespace RunRequest

variable {q : RunRequest} {c : Config} {now : Instant} {name : String} {r : Run}

section Apart

variable (store : Store σ) (queue : JobQueue κ) (notifier : Notifier ν) (w : World σ κ ν)

/-- **A request that is accepted offers its later days to the queue, makes its run on the store**,
and if that succeeds, presents the report. -/
theorem handle_apart (h : q.Runs c now name r) :
    let schedule := (r.schedule queue q.iterations).outcome w.queue
    let run := (r.execute store schedule.1.refused).outcome w.store
    (∀ e, run.1 = .error e →
        (q.handle (.apart store queue notifier) c now name).outcome w =
          (.returned (.error e), ⟨run.2, schedule.2, w.notifier⟩)) ∧
      ∀ rep, run.1 = .ok rep →
        (q.handle (.apart store queue notifier) c now name).outcome w =
          (.returned ((q.present notifier r rep).outcome w.notifier).1,
            ⟨run.2, schedule.2, ((q.present notifier r rep).outcome w.notifier).2⟩) := by
  intro schedule run
  have hschedule := Services.schedule_apart store queue notifier r q.iterations w
  have hrun := Services.execute_apart store queue notifier r schedule.1.refused
    { w with queue := schedule.2 }
  rw [handle_of_runs h, hschedule]
  constructor
  · intro e he
    rw [show (r.execute store _).outcome _ = run from rfl, he] at hrun
    rw [Attempt.outcome_bind_error hrun]
  · intro rep hrep
    rw [show (r.execute store _).outcome _ = run from rfl, hrep] at hrun
    rw [Attempt.outcome_bind_ok hrun, Services.present_apart store queue notifier q r rep]

end Apart

end RunRequest

end NetAudit
