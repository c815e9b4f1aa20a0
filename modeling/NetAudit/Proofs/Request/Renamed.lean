import NetAudit.Proofs.Request.Services
import NetAudit.Proofs.Run.Renamed

/-!
# Requests to archives that differ in the names of results

The queue and the notifier of a request never see a name of a result: jobs are windows, and messages
are texts of reports. So requests that are made to two such archives, one after the other, are
answered alike, and do the same to queue and notifier (`Inquiry.answerAll_alike`).
-/

namespace NetAudit

open Calendar (Instant)

variable {κ ν : Type}

/-- The response without the names of summaries. -/
def RunResponse.nameless : RunResponse → RunResponse
  | acknowledged => acknowledged
  | report rep => report rep.nameless
  | notified rep => notified rep.nameless

/-- A request, with the configuration, the present instant and the name for its run. -/
structure Inquiry where
  config : Config
  now : Instant
  name : String
  request : RunRequest

namespace Inquiry

variable (queue : JobQueue κ) (notifier : Notifier ν)

/-- What an inquiry is answered, and the world after it. -/
def answer (x : Inquiry) (w : World Archive κ ν) :
    Ending (Except RunError RunResponse) × World Archive κ ν :=
  (x.request.handle (.apart Archive.store queue notifier) x.config x.now x.name).outcome w

/-- What an inquiry is answered, without the names of summaries. -/
def nameless (answer : Ending (Except RunError RunResponse)) :
    Ending (Except RunError RunResponse) :=
  (·.map RunResponse.nameless) <$> answer

/-- What inquiries in a row are answered, and the world after them. -/
def answerAll : List Inquiry → World Archive κ ν →
    List (Ending (Except RunError RunResponse)) × World Archive κ ν
  | [], w => ([], w)
  | x :: xs, w =>
    let first := x.answer queue notifier w
    let rest := answerAll xs first.2
    (first.1 :: rest.1, rest.2)

end Inquiry

/-- The worlds differ in the names of results only. -/
structure World.SameButNames (w w' : World Archive κ ν) : Prop where
  store : w.store.SameButNames w'.store
  queue : w'.queue = w.queue
  notifier : w'.notifier = w.notifier

/-- A report is presented without the names of summaries. -/
theorem RunRequest.present_sameButNames (q : RunRequest) (notifier : Notifier ν) (r : Run)
    {rep rep' : Report} (h : rep'.nameless = rep.nameless) (n : ν) :
    ((q.present notifier r rep').outcome n).1.map RunResponse.nameless =
        ((q.present notifier r rep).outcome n).1.map RunResponse.nameless ∧
      ((q.present notifier r rep').outcome n).2 = ((q.present notifier r rep).outcome n).2 := by
  -- No name of a summary is in the text of a report, so that the same message is sent.
  have hnotify : notify notifier r rep' = notify notifier r rep := by
    unfold notify Notification.ofReport
    rw [Report.text_congr h]
  have hreport : (RunResponse.report rep').nameless = (RunResponse.report rep).nameless :=
    congrArg RunResponse.report h
  have hnotified : (RunResponse.notified rep').nameless = (RunResponse.notified rep).nameless :=
    congrArg RunResponse.notified h
  cases hworker : q.isWorker with
  | true => simp only [present_of_worker hworker, and_self]
  | false =>
      cases hshow : q.presentation with
      | report =>
          simp only [present_of_report hworker hshow, Except.map, hreport, and_self]
      | notification =>
          rw [present_of_notification hworker hshow, present_of_notification hworker hshow, hnotify,
            Attempt.outcome_bind, Attempt.outcome_bind]
          rcases (notify notifier r rep).outcome n with ⟨e | _, n'⟩
          · exact ⟨rfl, rfl⟩
          · exact ⟨congrArg Except.ok hnotified, rfl⟩

namespace Inquiry

variable (queue : JobQueue κ) (notifier : Notifier ν) {w w' : World Archive κ ν}

/-- **An inquiry is answered alike**, and leaves worlds that differ in the names of results only. -/
theorem answer_alike (h : w.SameButNames w') (x : Inquiry) :
    nameless (x.answer queue notifier w').1 = nameless (x.answer queue notifier w).1 ∧
      (x.answer queue notifier w).2.SameButNames (x.answer queue notifier w').2 := by
  by_cases hruns : ∃ r, x.request.Runs x.config x.now x.name r
  · obtain ⟨r, hr⟩ := hruns
    have hrun : ∀ (a : Archive) (unscheduled : List Window),
        (r.execute Archive.store unscheduled).outcome a =
          (.ok (r.reportOn a unscheduled), r.leave a) :=
      fun a unscheduled => r.execute_archive unscheduled a
    obtain ⟨-, hw⟩ := RunRequest.handle_apart Archive.store queue notifier w hr
    obtain ⟨-, hw'⟩ := RunRequest.handle_apart Archive.store queue notifier w' hr
    have hleft := hw _ (congrArg Prod.fst (hrun _ _))
    have hright := hw' _ (congrArg Prod.fst (hrun _ _))
    -- Queue and notifier are the same in both worlds, so the same windows are left unscheduled, and
    -- the reports differ in names only.
    rw [h.queue, h.notifier, hrun] at hright
    rw [hrun] at hleft
    obtain ⟨hanswer, hnotifier⟩ := x.request.present_sameButNames notifier r
      (h.store.nameless_reportOn r
        ((r.schedule queue x.request.iterations).outcome w.queue).1.refused) w.notifier
    unfold answer
    rw [hleft, hright]
    exact ⟨congrArg Ending.returned hanswer, h.store.leave r, rfl, hnotifier⟩
  · obtain ⟨a, -, hnothing⟩ := RunRequest.handle_of_not_runs fun r hr => hruns ⟨r, hr⟩
    unfold answer
    rw [hnothing, hnothing]
    exact ⟨rfl, h⟩

/-- **Inquiries in a row are answered alike.** -/
theorem answerAll_alike (h : w.SameButNames w') (xs : List Inquiry) :
    (answerAll queue notifier xs w').1.map nameless =
        (answerAll queue notifier xs w).1.map nameless ∧
      (answerAll queue notifier xs w).2.SameButNames (answerAll queue notifier xs w').2 := by
  induction xs generalizing w w' with
  | nil => exact ⟨rfl, h⟩
  | cons x xs ih =>
      obtain ⟨hfirst, hnext⟩ := x.answer_alike queue notifier h
      obtain ⟨hrest, hlast⟩ := ih hnext
      exact ⟨congrArg₂ List.cons hfirst hrest, hlast⟩

end Inquiry

end NetAudit
