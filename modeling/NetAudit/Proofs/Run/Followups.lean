import Mathlib.Order.Bounds.Defs
import NetAudit.Faults
import NetAudit.Memory
import NetAudit.Proofs.Calendar.Days
import NetAudit.Proofs.Run.Outcome

/-!
# Follow-up windows

A request for several days offers the windows of the later days to a queue. The loop that does so
stops at the first day that the calendar does not have, and it still offers all that there are:
`Run.schedule_outcome` says what it does in terms of the list of these windows
(`Window.daysFrom`) and of what the queue makes of each (`JobQueue.offers`), for any queue.
-/

namespace NetAudit

/-! ## Windows that are offered in a row

The queue may change its mind with every job. `JobQueue.offers` and `JobQueue.offered` say what it
answers to a list of windows, and what it is left as. -/

namespace JobQueue

variable {σ : Type} (queue : JobQueue σ)

/-- Each window with whether the queue takes it. -/
def offers : σ → List Window → List (Window × Bool)
  | _, [] => []
  | s, w :: ws =>
    let done := queue.enqueue (.ofWindow w) s
    (w, done.value.isOk) :: offers done.state ws

def offered (s : σ) (ws : List Window) : σ :=
  ws.foldl (fun s w => (queue.enqueue (.ofWindow w) s).state) s

/-- The jobs in the queue are those that it took, in their order. -/
def Keeps (jobs : σ → List Job) : Prop :=
  ∀ job s, jobs (queue.enqueue job s).state =
    if (queue.enqueue job s).value.isOk then jobs s ++ [job] else jobs s

def Accepts : Prop := ∀ job s, (queue.enqueue job s).value = .ok ()

/-- The queue with notes of all jobs that it is offered, and of whether it takes them. -/
def noting : JobQueue (σ × List (Job × Bool)) where
  enqueue job := fun s =>
    let done := queue.enqueue job s.1
    ⟨done.value, (done.state, s.2 ++ [(job, done.value.isOk)]), done.log⟩

theorem map_fst_offers (s : σ) (ws : List Window) : (queue.offers s ws).map (·.1) = ws := by
  induction ws generalizing s with
  | nil => rfl
  | cons w ws ih => rw [offers, List.map_cons, ih]

theorem length_offers (s : σ) (ws : List Window) : (queue.offers s ws).length = ws.length := by
  rw [← List.length_map (f := (·.1)), map_fst_offers]

variable {queue}

theorem offers_of_accepts (h : queue.Accepts) (s : σ) (ws : List Window) :
    queue.offers s ws = ws.map fun w => (w, true) := by
  induction ws generalizing s with
  | nil => rfl
  | cons w ws ih =>
      rw [offers, List.map_cons, ih, h]
      rfl

/-- **The accepted jobs are in the queue**, in the order in which they were offered. -/
theorem Keeps.jobs_offered {jobs : σ → List Job} (h : queue.Keeps jobs) (s : σ)
    (ws : List Window) :
    jobs (queue.offered s ws) =
      jobs s ++ ((queue.offers s ws).filter (·.2)).map fun p => .ofWindow p.1 := by
  induction ws generalizing s with
  | nil => exact (List.append_nil _).symm
  | cons w ws ih =>
      have hjobs := h (.ofWindow w) s
      show jobs (queue.offered _ ws) = _
      rw [ih, hjobs, offers, List.filter_cons]
      split
      · rw [List.append_assoc]
        rfl
      · rfl

theorem offers_noting (s : σ) (notes : List (Job × Bool)) (ws : List Window) :
    queue.noting.offers (s, notes) ws = queue.offers s ws := by
  induction ws generalizing s notes with
  | nil => rfl
  | cons w ws ih => exact congrArg _ (ih _ _)

theorem offered_noting (s : σ) (notes : List (Job × Bool)) (ws : List Window) :
    queue.noting.offered (s, notes) ws =
      (queue.offered s ws, notes ++ (queue.offers s ws).map fun p => (.ofWindow p.1, p.2)) := by
  induction ws generalizing s notes with
  | nil => exact congrArg _ (List.append_nil notes).symm
  | cons w ws ih =>
      refine (ih _ _).trans ?_
      rw [List.append_assoc]
      rfl

end JobQueue

/-! ## The schedule of offers

The loop over the days stops early at the end of the calendar. It offers the windows of the list
`Window.daysFrom`, and the later days that it does not look at are missing as well. -/

def Schedule.ofOffers (offers : List (Window × Bool)) : Schedule :=
  ⟨(offers.filter (·.2)).length, (offers.filter (!·.2)).map (·.1)⟩

theorem Schedule.reverse_foldl_enter (offers : List (Window × Bool)) (t : Schedule) :
    (offers.foldl (fun t p => t.enter p.1 p.2) t).reverse =
      ⟨t.accepted + (ofOffers offers).accepted,
        t.refused.reverse ++ (ofOffers offers).refused⟩ := by
  induction offers generalizing t with
  | nil => simp [reverse, ofOffers]
  | cons p offers ih =>
      obtain ⟨w, taken⟩ := p
      rw [List.foldl_cons, ih]
      cases taken with
      | true => simp [enter, ofOffers, Nat.add_assoc, Nat.add_comm 1]
      | false => simp [enter, ofOffers]

theorem Schedule.length_ofOffers (offers : List (Window × Bool)) :
    (ofOffers offers).accepted + (ofOffers offers).refused.length = offers.length := by
  unfold ofOffers
  rw [List.length_map, ← List.countP_eq_length_filter, ← List.countP_eq_length_filter]
  have hsplit := List.length_eq_countP_add_countP (fun p : Window × Bool => p.2) (l := offers)
  simpa using hsplit.symm

namespace Run

variable {σ : Type} (queue : JobQueue σ) (r : Run)

theorem offer_outcome (w : Window) (s : σ) :
    (r.offer queue w).outcome s =
      ((queue.enqueue (.ofWindow w) s).value.isOk, (queue.enqueue (.ofWindow w) s).state) := by
  rcases hanswer : queue.enqueue (.ofWindow w) s with ⟨answer, s', log⟩
  have houtcome : (queue.enqueue (.ofWindow w)).outcome s = (answer, s') := by
    rw [Action.outcome, hanswer]
  unfold offer
  rw [Action.outcome_bind, houtcome]
  cases answer <;> rfl

theorem offerDay_outcome {day : Nat} {w : Window} (h : r.window.addDays? day = .ok w)
    (t : Schedule) (s : σ) :
    (r.offerDay queue day t).outcome s =
      (some (t.enter w (queue.enqueue (.ofWindow w) s).value.isOk),
        (queue.enqueue (.ofWindow w) s).state) := by
  unfold offerDay
  rw [h]
  show Action.outcome (_ >>= _) s = _
  rw [Action.outcome_bind, offer_outcome]
  rfl

theorem offerDay_outcome_of_missing {day : Nat} (h : r.window.hasDay day = false) (t : Schedule)
    (s : σ) : (r.offerDay queue day t).outcome s = (none, s) := by
  unfold Window.hasDay at h
  unfold offerDay
  cases hday : r.window.addDays? day with
  | error e => rfl
  | ok w =>
      rw [hday] at h
      cases h

/-- **The loop offers every window that there is.** It stops at the first day that the calendar does
not have, and behind that day there is none. -/
theorem steps_offerDay_outcome (first count : Nat) (t : Schedule) (s : σ) :
    (Action.steps (r.offerDay queue) count first t).outcome s =
      ((queue.offers s (r.window.daysFrom first count)).foldl (fun t p => t.enter p.1 p.2) t,
        queue.offered s (r.window.daysFrom first count)) := by
  induction count generalizing first t s with
  | zero => rfl
  | succ count ih =>
      rw [Action.steps_succ, Action.outcome_bind]
      cases hday : r.window.hasDay first with
      | false =>
          -- The loop ends here, and so does the list of windows.
          rw [offerDay_outcome_of_missing queue r hday, Window.daysFrom_eq_nil hday]
          rfl
      | true =>
          obtain ⟨w, hw⟩ := Window.hasDay_iff_exists.1 hday
          rw [offerDay_outcome queue r hw, Window.daysFrom_succ_of_ok hw]
          exact ih _ _ _

/-- **What scheduling does**: it offers the windows of the later days, and tells what the queue made
of them. -/
theorem schedule_outcome (iterations : Nat) (s : σ) :
    (r.schedule queue iterations).outcome s =
      (.ofOffers (queue.offers s (r.window.daysFrom 1 (iterations - 1))),
        queue.offered s (r.window.daysFrom 1 (iterations - 1))) := by
  unfold schedule
  by_cases hone : iterations ≤ 1
  · have hnone : r.window.daysFrom 1 (iterations - 1) = [] := by
      simp [Nat.sub_eq_zero_of_le hone, Window.daysFrom]
    rw [if_pos hone, hnone]
    rfl
  · rw [if_neg hone]
    simp only [Action.outcome_bind, Action.outcome_log, Action.outcome_pure,
      steps_offerDay_outcome, Schedule.reverse_foldl_enter]
    simp [Schedule.empty]

theorem hasDay_followup (iterations : Nat) {k : Nat} (hk : 1 ≤ k) (hle : k ≤ iterations - 1) :
    r.window.hasDay k = true ↔ k - 1 < (r.window.daysFrom 1 (iterations - 1)).length := by
  have hlt : k - 1 < iterations - 1 := by omega
  have hday := r.window.hasDay_iff_lt_length 1 hlt
  rwa [Nat.add_sub_cancel' hk] at hday

/-- The windows that are offered are those of the first days, as many as the calendar has. -/
theorem isGreatest_followups (iterations : Nat) :
    IsGreatest {m | m ≤ max iterations 1 - 1 ∧
        ∀ k, 1 ≤ k → k ≤ m → r.window.hasDay k = true}
      (r.window.daysFrom 1 (iterations - 1)).length := by
  have hle := r.window.length_daysFrom_le 1 (iterations - 1)
  constructor
  · refine ⟨by omega, ?_⟩
    intro k hk hkm
    exact (r.hasDay_followup iterations hk (by omega)).2 (by omega)
  · rintro m ⟨hm, hall⟩
    -- If there were fewer, the next one would be missing.
    apply Decidable.byContradiction
    intro hlt
    have hday := hall m (by omega) (Nat.le_refl m)
    rw [r.hasDay_followup iterations (by omega) (by omega)] at hday
    omega

/-! ## The windows in the report

The windows that were refused go into the report unchanged, on every store. -/

/-- A report names the windows that could not be scheduled. -/
theorem unscheduled_of_execute (store : Store σ) (unscheduled : List Window) (s : σ) {rep : Report}
    (h : ((r.execute store unscheduled).perform s).value = .ok rep) :
    rep.unscheduled = unscheduled := by
  have hvalue : (r.execute store unscheduled).outcome s =
      (.ok rep, ((r.execute store unscheduled).perform s).state) := Prod.ext h rfl
  obtain ⟨_, _, -, hvalue⟩ := Attempt.exists_of_outcome_bind hvalue
  obtain ⟨_, _, -, hvalue⟩ := Attempt.exists_of_outcome_bind hvalue
  obtain ⟨_, _, -, hvalue⟩ := Attempt.exists_of_outcome_bind hvalue
  obtain ⟨_, _, -, hvalue⟩ := Attempt.exists_of_outcome_bind hvalue
  rw [Attempt.outcome_pure] at hvalue
  cases hvalue
  rfl

end Run

/-! ## Every later day

`Run.FansOut` puts the parts together, with the greatest number of days that can be had. -/

/-- What becomes of the later days of a request. There are `days` of them that can be had, and
`offers` says of their windows whether the queue took them. -/
structure Run.FansOut {σ : Type} (r : Run) (queue : JobQueue σ) (jobs : σ → List Job)
    (iterations : Nat) (s : σ) (days : Nat) (offers : List (Window × Bool)) : Prop where
  greatest : IsGreatest {m | m ≤ max iterations 1 - 1 ∧
    ∀ k, 1 ≤ k → k ≤ m → r.window.hasDay k = true} days
  /-- None of the days that were asked for can be had behind the last one that is offered. -/
  complete : ∀ k, days < k → k ≤ max iterations 1 - 1 → r.window.hasDay k = false
  length : offers.length = days
  window : ∀ k p, offers[k]? = some p → r.window.addDays? (k + 1 : Nat) = .ok p.1
  /-- The queue is offered one job for each window, in order, and nothing else. -/
  offered : (r.schedule queue.noting iterations (s, [])).state =
    ((r.schedule queue iterations s).state,
      offers.map fun p => (⟨p.1.start, p.1.stop, 1⟩, p.2))
  jobs : jobs (r.schedule queue iterations s).state =
    jobs s ++ (offers.filter (·.2)).map fun p => .ofWindow p.1
  accepted : (r.schedule queue iterations s).value.accepted = (offers.filter (·.2)).length
  refused : (r.schedule queue iterations s).value.refused = (offers.filter (!·.2)).map (·.1)
  total : (r.schedule queue iterations s).value.accepted +
    (r.schedule queue iterations s).value.refused.length = days
  /-- A report names the windows that were refused. -/
  reported : ∀ {τ : Type} (store : Store τ) (t : τ) (rep : Report),
    ((r.execute store (r.schedule queue iterations s).value.refused).perform t).value = .ok rep →
      rep.unscheduled = (offers.filter (!·.2)).map (·.1)
  /-- The run on an archive always has a report, and that names the windows which were refused. -/
  archive : ∀ a : Archive, ∃ rep,
    ((r.execute Archive.store (r.schedule queue iterations s).value.refused).perform a).value =
      .ok rep ∧ rep.unscheduled = (offers.filter (!·.2)).map (·.1)

/-- **No later day is lost or offered twice**, whatever the queue makes of the jobs. -/
theorem Run.schedule_fansOut {σ : Type} {queue : JobQueue σ} {jobs : σ → List Job}
    (hqueue : queue.Keeps jobs) (r : Run) (iterations : Nat) (s : σ) :
    ∃ days offers, r.FansOut queue jobs iterations s days offers := by
  -- The same schedule is made with the queue and with a copy of it that notes every offer.
  have hdone := r.schedule_outcome queue iterations s
  have hnoted := r.schedule_outcome queue.noting iterations (s, [])
  rw [JobQueue.offers_noting, JobQueue.offered_noting, List.nil_append] at hnoted
  have hlength := queue.length_offers s (r.window.daysFrom 1 (iterations - 1))
  have hwindows := queue.map_fst_offers s (r.window.daysFrom 1 (iterations - 1))
  generalize hoffers : queue.offers s (r.window.daysFrom 1 (iterations - 1)) = offers at *
  have hvalue : (r.schedule queue iterations s).value = .ofOffers offers := congrArg Prod.fst hdone
  have hstate : (r.schedule queue iterations s).state = _ := congrArg Prod.snd hdone
  have hrefused : (r.schedule queue iterations s).value.refused =
      (offers.filter (!·.2)).map (·.1) := congrArg Schedule.refused hvalue
  refine ⟨(r.window.daysFrom 1 (iterations - 1)).length, offers, ?_⟩
  constructor
  case greatest => exact r.isGreatest_followups iterations
  case complete =>
    intro k hlt hle
    rw [← Bool.not_eq_true, r.hasDay_followup iterations (by omega) (by omega)]
    omega
  case length => exact hlength
  case window =>
    intro k p hp
    have hwindow : (r.window.daysFrom 1 (iterations - 1))[k]? = some p.1 := by
      rw [← hwindows, List.getElem?_map, hp]
      rfl
    rw [Nat.add_comm k 1]
    exact Window.getElem?_daysFrom hwindow
  case offered =>
    rw [hstate]
    exact congrArg Prod.snd hnoted
  case jobs => rw [hstate, hqueue.jobs_offered, hoffers]
  case accepted => exact congrArg Schedule.accepted hvalue
  case refused => exact hrefused
  case total => rw [hvalue, Schedule.length_ofOffers, hlength]
  case reported =>
    intro τ store t rep h
    rw [← hrefused]
    exact r.unscheduled_of_execute store _ t h
  case archive =>
    intro a
    exact ⟨_, congrArg Prod.fst (r.execute_archive _ a), hrefused⟩

/-- The queue of a memory keeps its jobs, with faults and without. -/
theorem Memory.keeps_jobs : Memory.services.queue.Keeps Memory.jobs := by
  intro job m
  exact List.reverse_cons

theorem Memory.keeps_jobs_withFaults :
    Memory.services.withFaults.queue.Keeps fun s => s.inner.jobs := by
  intro job s
  show jobs (Faulty.guardAction _ _ _ _ s).state.inner =
    if (Faulty.guardAction _ _ _ _ s).value.isOk then _ else _
  unfold Faulty.guardAction
  rcases Fault.strike .enqueue "" s.faults with ⟨_ | f, faults⟩
  · exact keeps_jobs job s.inner
  · rfl

/-- A run over a day with three days behind it in the calendar. -/
def Run.ofLastDays : Run where
  name := "last"
  window :=
    ⟨⟨Calendar.lastSecond - 4 * 86400, 0, by decide, by decide, Calendar.Instant.epoch.nano_lt,
      by decide⟩,
    ⟨Calendar.lastSecond - 3 * 86400, 0, by decide, by decide, Calendar.Instant.epoch.nano_lt,
      by decide⟩⟩
  startedAt := .epoch
  limit := none
  config := {}

/-- A queue without jobs that will refuse the second one. -/
def Faulty.refusingSecond : Faulty Memory where
  faults := [⟨.enqueue, none, 1, some 1, .rejected, "full"⟩]
  inner := .ofArchive (.empty 0)

theorem Run.schedule_fansOut_ofLastDays :
    ∃ days offers, ofLastDays.FansOut Memory.services.withFaults.queue (fun s => s.inner.jobs) 10
      .refusingSecond days offers :=
  ofLastDays.schedule_fansOut Memory.keeps_jobs_withFaults 10 .refusingSecond

end NetAudit
