import NetAudit.Proofs.Comparison
import NetAudit.Proofs.Run.Failures
import NetAudit.Request

/-!
# How a report is presented

When a run has succeeded, its report is handed out as it is wanted. Each way of doing so has a lemma
that says what is answered and what becomes of the notifier, from `RunRequest.present_of_worker` to
`RunRequest.present_of_undelivered`.
-/

namespace NetAudit

variable {ν ω : Type}

/-! ## Messages

A report makes a message if the settings name a sender and a recipient. -/

namespace Notification

variable {c : Config} {rep : Report}

theorem ofReport_eq_ok_iff {message : Notification} :
    ofReport c rep = .ok message ↔ c.sender = some message.sender ∧
      c.recipient = some message.recipient ∧ message.subject = c.subject ∧
        message.body = rep.text := by
  unfold ofReport
  obtain ⟨sender, recipient, subject, body⟩ := message
  cases c.sender <;> cases c.recipient <;> simp [eq_comm]

theorem missing_of_ofReport {e : RunError} (h : ofReport c rep = .error e) :
    (∃ reason, e = .notification reason) ∧ (c.sender = none ∨ c.recipient = none) := by
  unfold ofReport at h
  split at h
  · next hsender =>
      cases h
      exact ⟨⟨_, rfl⟩, .inl hsender⟩
  · next hrecipient =>
      cases h
      exact ⟨⟨_, rfl⟩, .inr hrecipient⟩
  · cases h

end Notification

namespace RunRequest

variable {q : RunRequest} {r : Run} {rep : Report} {notifier : Notifier ν}

/-! ## Presentations

A worker only acknowledges. Otherwise the report itself is handed out, or a message with it is
sent. -/

theorem present_of_worker (h : q.isWorker = true) (n : ν) :
    (q.present notifier r rep).outcome n = (.ok .acknowledged, n) := by
  unfold present
  rw [if_pos h]
  rfl

theorem present_of_report (hworker : q.isWorker = false) (h : q.presentation = .report) (n : ν) :
    (q.present notifier r rep).outcome n = (.ok (.report rep), n) := by
  unfold present
  rw [if_neg (Bool.eq_false_iff.1 hworker), h]
  rfl

/-- A message is sent, and its fate is that of the notice. -/
theorem notify_outcome (notifier : Notifier ν) {message : Notification}
    (hmessage : Notification.ofReport r.config rep = .ok message) (n : ν) :
    (notify notifier r rep).outcome n =
      (((notifier.send message).outcome n).1.mapError fun e => .notification e.message,
        ((notifier.send message).outcome n).2) := by
  have hfirst : (Attempt.ofExcept (Notification.ofReport r.config rep)).outcome n =
      (.ok message, n) := by
    rw [hmessage]
    rfl
  have hask := Attempt.outcome_ask (some r.context) .notificationFailed
    (fun e => .notification e.message) (notifier.send message) n
  unfold notify
  rw [Attempt.outcome_bind_ok hfirst]
  rcases hsend : (notifier.send message).outcome n with ⟨e | _, n'⟩
  · rw [hsend] at hask
    exact Attempt.outcome_bind_error hask
  · rw [hsend] at hask
    exact Attempt.outcome_bind_ok hask

section Notification

variable (hworker : q.isWorker = false) (h : q.presentation = .notification) (n : ν)

include hworker h

theorem present_of_notification :
    q.present notifier r rep = (do notify notifier r rep; return .notified rep) := by
  unfold present
  rw [if_neg (Bool.eq_false_iff.1 hworker), h]

theorem present_of_missing {e : RunError} (he : Notification.ofReport r.config rep = .error e) :
    (q.present notifier r rep).outcome n = (.error e, n) := by
  have hnotify : (notify notifier r rep).outcome n = (.error e, n) := by
    unfold notify
    exact Attempt.outcome_bind_error (by rw [he]; rfl)
  rw [present_of_notification hworker h, Attempt.outcome_bind_error hnotify]

theorem present_of_delivered {message : Notification} {n' : ν}
    (hmessage : Notification.ofReport r.config rep = .ok message)
    (hsend : (notifier.send message).outcome n = (.ok (), n')) :
    (q.present notifier r rep).outcome n = (.ok (.notified rep), n') := by
  have hnotify := notify_outcome notifier hmessage n
  rw [hsend] at hnotify
  rw [present_of_notification hworker h, Attempt.outcome_bind_ok hnotify]
  rfl

theorem present_of_undelivered {message : Notification} {e : NotifyError} {n' : ν}
    (hmessage : Notification.ofReport r.config rep = .ok message)
    (hsend : (notifier.send message).outcome n = (.error e, n')) :
    (q.present notifier r rep).outcome n = (.error (.notification e.message), n') := by
  have hnotify := notify_outcome notifier hmessage n
  rw [hsend] at hnotify
  rw [present_of_notification hworker h, Attempt.outcome_bind_error hnotify]

end Notification

variable (notifier q r rep)

/-- **All that can go wrong with a presentation is a message.** -/
theorem present_failsOnly :
    (q.present notifier r rep).FailsOnly fun e => ∃ reason, e = .notification reason := by
  unfold present
  split
  · exact .pure _
  · split
    · exact .pure _
    · refine .bind (.bind (.ofExcept fun e he => ?_) fun message => ?_) fun _ => .pure _
      · exact (Notification.missing_of_ofReport he).1
      · exact .bind (.ask _ _ _ fun e => ⟨e.message, rfl⟩) fun _ => .log _ _

variable {notifier}

/-- The presentation to a notifier that follows another one is that to the other notifier. -/
theorem present_follows {view : ν → ω} {ref : Notifier ω}
    (h : ∀ message, (notifier.send message).Follows view (ref.send message)) :
    (q.present notifier r rep).Follows view (q.present ref r rep) := by
  unfold present
  split
  · exact .pure rfl
  · split
    · exact .pure rfl
    · refine Attempt.Relates.bind_eq ?_ fun _ => .pure rfl
      refine Attempt.Relates.bind_eq (.ofExcept ?_) fun message => ?_
      · cases Notification.ofReport r.config rep <;> rfl
      · exact .bind_eq (.ask (h message) fun _ => rfl) fun _ => .log rfl

end RunRequest

end NetAudit
