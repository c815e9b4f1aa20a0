import NetAudit.Proofs.Comparison
import NetAudit.Run.Execute

/-!
# Runs on stores that follow others

A run uses its store by the store's operations alone. So if a store follows another one, a run on
the first does what the same run on the second does. The lemmas go through the parts of a run, one
for each, up to `Run.execute_follows`.
-/

namespace NetAudit

variable {σ ω α : Type} {view : σ → ω} {store : Store σ} {ref : Store ω}

theorem Measurement.repairTask_follows (h : store.Follows view ref) (m : Measurement) :
    (m.repairTask store).Follows view (m.repairTask ref) := by
  unfold repairTask
  cases m.task with
  | none => exact .pure rfl
  | some task =>
      apply Action.Relates.bind_eq (Action.Follows.ofOp (h.task task))
      intro answer
      cases answer with
      | error e => exact .pure rfl
      | ok found =>
          cases found with
          | some t => exact .pure rfl
          | none =>
              apply Action.Relates.bind_eq (.log rfl)
              intro _
              apply Action.Relates.bind_eq
                (Action.Follows.ofOp (h.persistMeasurement m.withoutTask))
              intro answer
              exact .pure rfl

namespace RecordStream

theorem fetch_follows (h : store.Follows view ref) (r : RecordStream) :
    (r.fetch store).Follows view (r.fetch ref) := by
  apply Action.Relates.bind_eq (Action.Follows.ofOp (h.query r.query r.pageSize r.cursor))
  intro answer
  exact .pure rfl

theorem forEachWithin_follows (h : store.Follows view ref)
    {f : α → Measurement → Action σ α} {g : α → Measurement → Action ω α}
    (hf : ∀ a m, (f a m).Follows view (g a m)) (pages : Nat) (r : RecordStream) (a : α) :
    (r.forEachWithin store f pages a).Follows view (r.forEachWithin ref g pages a) := by
  induction pages generalizing r a with
  | zero =>
      unfold forEachWithin
      apply Action.Relates.bind_eq (.foldlM_eq hf _ _)
      intro a
      exact .pure rfl
  | succ pages ih =>
      unfold forEachWithin
      apply Action.Relates.bind_eq (.foldlM_eq hf _ _)
      intro a
      show Action.Relates _ _ (if _ then _ else _) (if _ then _ else _)
      split
      · exact .pure rfl
      · apply Action.Relates.bind_eq (fetch_follows h _)
        intro answer
        cases answer with
        | error e => exact .pure rfl
        | ok r => exact ih r a

theorem forEach_follows (h : store.Follows view ref)
    {f : α → Measurement → Action σ α} {g : α → Measurement → Action ω α}
    (hf : ∀ a m, (f a m).Follows view (g a m)) (r : RecordStream) (a : α) :
    (r.forEach store f a).Follows view (r.forEach ref g a) := by
  rintro s _ rfl
  show Done.Relates _ _ (r.forEachWithin store f (store.pageBound s) a s) _
  rw [h.pageBound s]
  exact forEachWithin_follows h hf _ r a s _ rfl

end RecordStream

namespace Run

theorem noteRepair_follows (c : LogContext) (t : Tally) (answer : Except StoreError Bool) :
    (noteRepair (σ := σ) c t answer).Follows view (noteRepair c t answer) := by
  unfold noteRepair
  split
  · exact .bind_eq (.log rfl) fun _ => .pure rfl
  · exact .pure rfl
  · exact .bind_eq (.log rfl) fun _ => .pure rfl

theorem observe_follows (h : store.Follows view ref) (r : Run) (t : Tally) (m : Measurement) :
    (r.observe store t m).Follows view (r.observe ref t m) := by
  unfold observe
  apply Action.Relates.bind_eq (Action.Follows.ofOp (h.device m.device))
  intro answer
  split
  · apply Action.Relates.bind_eq (m.repairTask_follows h)
    intro repair
    apply Action.Relates.bind_eq (noteRepair_follows _ _ _)
    intro t
    exact .bind_eq (.logAll rfl) fun _ => .pure rfl
  · exact .bind_eq (.log rfl) fun _ => .pure rfl
  · exact .bind_eq (.log rfl) fun _ => .pure rfl

theorem collect_follows (h : store.Follows view ref) (r : Run) :
    (r.collect store).Follows view (r.collect ref) := by
  apply Attempt.Relates.bind_eq (.of (RecordStream.forEach_follows h (r.observe_follows h) _ _))
  rintro ⟨t, error⟩
  cases error with
  | none => exact .pure rfl
  | some e => exact .bind_eq (.log rfl) fun _ => .fail _

theorem storeSummary_follows (h : store.Follows view ref) (r : Run) (kind : Kind) (s : Summary) :
    (r.storeSummary store kind s).Follows view (r.storeSummary ref kind s) :=
  .ask (Action.Follows.ofOp (h.persistSummary s)) fun _ => rfl

theorem storeEntry_follows (h : store.Follows view ref) (r : Run) (id : SummaryId)
    (p : PendingEntry) : (r.storeEntry store id p).Follows view (r.storeEntry ref id p) :=
  .ask (Action.Follows.ofOp (h.persistEntry (p.attach id))) fun _ => rfl

theorem storeAccount_follows (h : store.Follows view ref) (r : Run) (kind : Kind) (a : Account) :
    (r.storeAccount store kind a).Follows view (r.storeAccount ref kind a) := by
  unfold storeAccount
  split
  · exact .pure rfl
  · apply Attempt.Relates.bind_eq (r.storeSummary_follows h kind a.summary)
    intro id
    apply Attempt.Relates.bind_eq
    · apply Attempt.Relates.forM
      intro p
      exact .bind_eq (r.storeEntry_follows h id p) fun _ => .pure rfl
    · intro _
      exact .bind_eq (.log rfl) fun _ => .pure rfl

theorem storeTally_follows (h : store.Follows view ref) (r : Run) (t : Tally) :
    (r.storeTally store t).Follows view (r.storeTally ref t) := by
  apply Attempt.Relates.bind_eq
  · apply Attempt.Relates.mapM_eq
    intro e
    exact r.storeAccount_follows h e.1 e.2
  · intro kinds
    exact .pure rfl

/-- **A run on a store that follows another one** is the run on that other store. -/
theorem execute_follows (h : store.Follows view ref) (r : Run) (unscheduled : List Window) :
    (r.execute store unscheduled).Follows view (r.execute ref unscheduled) := by
  apply Attempt.Relates.bind_eq (.log rfl)
  intro _
  apply Attempt.Relates.bind_eq (r.collect_follows h)
  intro t
  apply Attempt.Relates.bind_eq (r.storeTally_follows h t)
  intro kinds
  exact .bind_eq (.log rfl) fun _ => .pure rfl

end Run

end NetAudit
