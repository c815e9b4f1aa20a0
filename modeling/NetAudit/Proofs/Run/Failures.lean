import NetAudit.Proofs.Action
import NetAudit.Run.Execute

/-!
# Why a run fails

A run fails if its store does not do its part, and for no other reason: `Run.execute_failsOnly`, on
every store. The attempts that a run is made of are gone through one by one, each with the failures
of its parts (`Attempt.FailsOnly`).
-/

namespace NetAudit

variable {σ : Type}

/-- The error of a store that stands behind a failure. -/
def RunError.ofStore? : RunError → Option StoreError
  | query e | persistence _ e => some e
  | unsupported _ | window _ | tooManyIterations _ _ | notification _ => none

namespace Run

/-- The failure is that of a store. -/
abbrev IsOfStore (e : RunError) : Prop := e.ofStore?.isSome = true

variable (store : Store σ) (r : Run)

theorem collect_failsOnly : (r.collect store).FailsOnly IsOfStore := by
  refine Attempt.FailsOnly.bind (.of _) ?_
  rintro ⟨t, error⟩
  cases error with
  | none => exact .pure t
  | some e => exact .bind (.log _ _) fun _ => .fail rfl

theorem storeSummary_failsOnly (kind : Kind) (s : Summary) :
    (r.storeSummary store kind s).FailsOnly IsOfStore := .ask _ _ _ fun _ => rfl

theorem storeEntry_failsOnly (id : SummaryId) (p : PendingEntry) :
    (r.storeEntry store id p).FailsOnly IsOfStore := .ask _ _ _ fun _ => rfl

theorem storeAccount_failsOnly (kind : Kind) (a : Account) :
    (r.storeAccount store kind a).FailsOnly IsOfStore := by
  unfold storeAccount
  split
  · exact .pure _
  · refine .bind (r.storeSummary_failsOnly store kind a.summary) fun id => .bind (.forM ?_ _) ?_
    · exact fun p => .bind (r.storeEntry_failsOnly store id p) fun _ => .pure ()
    · exact fun _ => .bind (.log _ _) fun _ => .pure _

theorem storeTally_failsOnly (t : Tally) : (r.storeTally store t).FailsOnly IsOfStore :=
  .bind (.mapM (fun e => r.storeAccount_failsOnly store e.1 e.2) t.accounts.toList) fun _ => .pure _

/-- **A run fails only if its store does.** -/
theorem execute_failsOnly (unscheduled : List Window) :
    (r.execute store unscheduled).FailsOnly IsOfStore := by
  refine Attempt.FailsOnly.bind (.log _ _) fun _ => ?_
  refine .bind (r.collect_failsOnly store) fun t => ?_
  refine .bind (r.storeTally_failsOnly store t) fun kinds => ?_
  exact .bind (.log _ _) fun _ => .pure _

end Run

end NetAudit
