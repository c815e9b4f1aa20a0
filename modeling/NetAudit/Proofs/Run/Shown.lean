import NetAudit.Proofs.Comparison
import NetAudit.Proofs.OrderedMap
import NetAudit.Run.Execute

/-!
# What a run shows is not what it does

Whether a measurement is shown in the report is decided on its way through the accounts, next to
what is counted. So two runs are compared that differ in what they show: they agree on every state
(`Action.Agree`), where tallies are related if they are equal but for details. The lemmas go through
the parts of a run up to `Run.execute_agree`, on any store, whatever it answers.
-/

namespace NetAudit

open Calendar (Instant)

variable {σ α β γ δ : Type}

/-! ## Streams

The loop over a stream does the same with two visits that agree, whatever they keep in hand. -/

theorem RecordStream.forEachWithin_agree {R : α → β → Prop} (store : Store σ)
    {f : α → Measurement → Action σ α} {g : β → Measurement → Action σ β}
    (hf : ∀ a b m, R a b → (f a m).Agree R (g b m)) (pages : Nat) (stream : RecordStream)
    {a : α} {b : β} (hab : R a b) :
    Action.Agree (fun x y => R x.1 y.1 ∧ x.2 = y.2) (stream.forEachWithin store f pages a)
      (stream.forEachWithin store g pages b) := by
  induction pages generalizing stream a b with
  | zero =>
      unfold forEachWithin
      exact .bind (.foldlM hf _ hab) fun _ _ hab => .pure ⟨hab, rfl⟩
  | succ pages ih =>
      unfold forEachWithin
      apply Action.Relates.bind (.foldlM hf _ hab)
      intro a b hab
      show Action.Relates _ _ (if _ then _ else _) (if _ then _ else _)
      split
      · exact .pure ⟨hab, rfl⟩
      · apply Action.Relates.bind_eq (Action.Agree.refl _)
        intro answer
        cases answer with
        | error e => exact .pure ⟨hab, rfl⟩
        | ok stream => exact ih stream hab

/-! ## Without details

Accounts and tallies are compared without their details (`Tally.plain`). Scoring a record changes
what is left in the same way under any settings. -/

def Account.plain (a : Account) : Account := { a with details := [] }

def Tally.plain (t : Tally) : Tally := { t with accounts := t.accounts.mapValues Account.plain }

def KindReport.plain (x : KindReport) : KindReport := { x with details := [] }

/-- The report without its name and its details. -/
def Report.plain (rep : Report) : Report :=
  { rep with run := "", kinds := rep.kinds.mapValues KindReport.plain }

theorem Account.plain_eq_iff {a b : Account} :
    a.plain = b.plain ↔ a.summary = b.summary ∧ a.pending = b.pending := by
  unfold plain
  simp

/-- **What is shown does not reach what is counted.** -/
theorem Account.plain_score {a b : Account} (h : a.plain = b.plain) (c c' : Config) (w : Window)
    (device : DeviceInfo) (m : Measurement) :
    (a.score c w device m).plain = (b.score c' w device m).plain := by
  obtain ⟨summary, pending, details⟩ := a
  obtain ⟨_, _, details'⟩ := b
  obtain ⟨rfl, rfl⟩ := plain_eq_iff.1 h
  unfold score
  cases Validator.of? m with
  | error e => rfl
  | ok v =>
      simp only [enter]
      cases c.shows v.score <;> cases c'.shows v.score <;> cases v.score.isValid <;> rfl

namespace Tally

variable {t u : Tally}

theorem plain_eq_iff : t.plain = u.plain ↔
    t.accounts.mapValues Account.plain = u.accounts.mapValues Account.plain ∧
      t.skipped = u.skipped ∧ t.repaired = u.repaired := by
  unfold plain
  simp

theorem plain_skip (h : t.plain = u.plain) : t.skip.plain = u.skip.plain := by
  obtain ⟨haccounts, hskipped, hrepaired⟩ := plain_eq_iff.1 h
  exact plain_eq_iff.2 ⟨haccounts, congrArg (· + 1) hskipped, hrepaired⟩

theorem plain_repair (h : t.plain = u.plain) : t.repair.plain = u.repair.plain := by
  obtain ⟨haccounts, hskipped, hrepaired⟩ := plain_eq_iff.1 h
  exact plain_eq_iff.2 ⟨haccounts, hskipped, congrArg (· + 1) hrepaired⟩

theorem plain_score (h : t.plain = u.plain) (c c' : Config) (w : Window) (device : DeviceInfo)
    (m : Measurement) : (t.score c w device m).plain = (u.score c' w device m).plain := by
  obtain ⟨haccounts, hskipped, hrepaired⟩ := plain_eq_iff.1 h
  refine plain_eq_iff.2 ⟨?_, hskipped, hrepaired⟩
  apply OrderedMap.ext_find?
  intro k
  have hk := congrArg (fun x => x.find? k) haccounts
  simp only [OrderedMap.find?_mapValues] at hk
  unfold score
  rw [OrderedMap.find?_mapValues, OrderedMap.find?_mapValues, OrderedMap.find?_update,
    OrderedMap.find?_update]
  split
  · next heq =>
      subst heq
      rw [Option.map_some, Option.map_some]
      apply congrArg some
      apply Account.plain_score
      cases ht : t.accounts.find? m.kind <;> cases hu : u.accounts.find? m.kind <;>
        rw [ht, hu] at hk <;> simp_all
  · exact hk

section Accounts

variable (h : t.accounts.mapValues Account.plain = u.accounts.mapValues Account.plain)

include h

theorem entryCount_of_plain : Run.entryCount t = Run.entryCount u := by
  have hcounts : ∀ x : Tally, x.accounts.values.map (fun a => a.pending.length) =
      (x.accounts.mapValues Account.plain).values.map fun a => a.pending.length := by
    intro x
    rw [OrderedMap.values_mapValues, List.map_map]
    rfl
  unfold Run.entryCount
  rw [hcounts, hcounts, h]

/-- The accounts of the same kinds are equal but for details. -/
theorem forall₂_of_plain :
    List.Forall₂ (fun e f : Kind × Account => e.1 = f.1 ∧ e.2.plain = f.2.plain)
      t.accounts.toList u.accounts.toList := by
  have hlists : t.accounts.toList.map (fun e => (e.1, e.2.plain)) =
      u.accounts.toList.map fun e => (e.1, e.2.plain) := congrArg OrderedMap.toList h
  rw [← List.forall₂_eq_eq_eq, List.forall₂_map_left_iff, List.forall₂_map_right_iff] at hlists
  exact hlists.imp fun _ _ heq => Prod.mk.inj heq

end Accounts

end Tally

/-! ## Runs

Each part of a run agrees with the same part of a run under other settings, on every store. -/

/-- Both runs go through the same records in pages of the same size. -/
structure Run.SameWork (r r' : Run) : Prop where
  window : r'.window = r.window
  limit : r'.limit = r.limit
  pageSize : r'.config.pageSize = r.config.pageSize

namespace Run

variable {store : Store σ} {r r' : Run} {t u : Tally}

theorem noteRepair_agree (c c' : LogContext) (answer : Except StoreError Bool)
    (h : t.plain = u.plain) :
    (noteRepair (σ := σ) c t answer).Agree (fun t u => t.plain = u.plain)
      (noteRepair c' u answer) := by
  unfold noteRepair
  split
  · exact .bind_eq (.log trivial) fun _ => .pure (Tally.plain_repair h)
  · exact .pure h
  · exact .bind_eq (.log trivial) fun _ => .pure h

theorem observe_agree (store : Store σ) (hwork : r.SameWork r') (m : Measurement)
    (h : t.plain = u.plain) :
    (r.observe store t m).Agree (fun t u => t.plain = u.plain) (r'.observe store u m) := by
  unfold observe
  apply Action.Relates.bind_eq (Action.Agree.refl _)
  intro answer
  split
  · apply Action.Relates.bind_eq (Action.Agree.refl _)
    intro repair
    apply Action.Relates.bind (noteRepair_agree _ _ repair.result h)
    intro t u h
    rw [hwork.window]
    exact .bind_eq (.logAll trivial) fun _ => .pure (Tally.plain_score h _ _ _ _ _)
  · exact .bind_eq (.log trivial) fun _ => .pure (Tally.plain_skip h)
  · exact .bind_eq (.log trivial) fun _ => .pure (Tally.plain_skip h)

theorem collect_agree (store : Store σ) (hwork : r.SameWork r') :
    (r.collect store).Agree (fun t u => t.plain = u.plain) (r'.collect store) := by
  have hstream : RecordStream.ofQuery r'.query r'.config.pageSize =
      .ofQuery r.query r.config.pageSize := by
    unfold query
    rw [hwork.window, hwork.limit, hwork.pageSize]
  unfold collect
  rw [hstream]
  apply Attempt.Relates.bind
  · apply Attempt.Relates.of
    apply Action.Relates.bind_eq (Action.Agree.refl _)
    intro s
    exact RecordStream.forEachWithin_agree store (fun _ _ m h => observe_agree store hwork m h) _ _
      (show Tally.initial.plain = Tally.initial.plain from rfl)
  · rintro ⟨t, error⟩ ⟨u, _⟩ ⟨h, rfl⟩
    cases error with
    | none => exact .pure h
    | some e => exact .bind_eq (.log trivial) fun _ => .fail _

theorem storeAccount_agree (store : Store σ) (r r' : Run) (kind : Kind) {a b : Account}
    (h : a.plain = b.plain) :
    (r.storeAccount store kind a).Agree (fun x y => x.1 = y.1 ∧ x.2.plain = y.2.plain)
      (r'.storeAccount store kind b) := by
  have hreport : ∀ id, (kindReport a id).plain = (kindReport b id).plain := by
    intro id
    unfold KindReport.plain kindReport
    rw [(Account.plain_eq_iff.1 h).1]
  obtain ⟨hsummary, hpending⟩ := Account.plain_eq_iff.1 h
  unfold storeAccount
  rw [hsummary, hpending]
  -- Both runs ask the store for the same things in the same order. Their reports differ in details.
  split
  · exact .pure ⟨rfl, hreport none⟩
  · apply Attempt.Relates.bind_eq (.ask (Action.Agree.refl _) fun _ => trivial)
    intro id
    apply Attempt.Relates.bind_eq
    · apply Attempt.Relates.forM
      intro p
      exact .bind_eq (.ask (Action.Agree.refl _) fun _ => trivial) fun _ => .pure rfl
    · intro _
      exact .bind_eq (.log trivial) fun _ => .pure ⟨rfl, hreport (some id)⟩

theorem storeTally_agree (store : Store σ) (r r' : Run) (h : t.plain = u.plain) :
    (r.storeTally store t).Agree
      (fun x y => x.mapValues KindReport.plain = y.mapValues KindReport.plain)
      (r'.storeTally store u) := by
  apply Attempt.Relates.bind
  · refine Attempt.Relates.mapM (S := fun x y => x.1 = y.1 ∧ x.2.plain = y.2.plain) ?_
      (Tally.forall₂_of_plain (Tally.plain_eq_iff.1 h).1)
    rintro ⟨kind, a⟩ ⟨_, b⟩ ⟨rfl, hab⟩
    exact storeAccount_agree store r r' kind hab
  · intro xs ys hxy
    apply Attempt.Relates.pure
    rw [OrderedMap.mapValues_ofList, OrderedMap.mapValues_ofList]
    apply congrArg OrderedMap.ofList
    rw [← List.forall₂_eq_eq_eq, List.forall₂_map_left_iff, List.forall₂_map_right_iff]
    exact hxy.imp fun _ _ heq => Prod.ext heq.1 heq.2

/-- **What a run shows is not what it does**, on any store. -/
theorem execute_agree (store : Store σ) (hwork : r.SameWork r') (unscheduled : List Window) :
    (r.execute store unscheduled).Agree (fun x y => x.plain = y.plain)
      (r'.execute store unscheduled) := by
  unfold execute
  apply Attempt.Relates.bind_eq (.log trivial)
  intro _
  apply Attempt.Relates.bind (collect_agree store hwork)
  intro t u h
  apply Attempt.Relates.bind (storeTally_agree store r r' h)
  intro x y hxy
  apply Attempt.Relates.bind_eq (.log trivial)
  intro _
  apply Attempt.Relates.pure
  obtain ⟨haccounts, hskipped, hrepaired⟩ := Tally.plain_eq_iff.1 h
  unfold Report.plain
  simp only [hxy, hskipped, hrepaired, hwork.window, Tally.entryCount_of_plain haccounts]

end Run

end NetAudit
