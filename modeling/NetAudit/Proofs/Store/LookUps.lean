import NetAudit.Proofs.Action
import NetAudit.Store.Archive

/-!
# Stores that are looked at

Dashboards write nothing. What they show of a store is what it answers to look-ups, and that makes
sense if the answers do not change in between. `Store.Shows` says so of any store: in some of its
states it answers as a `View` does, and a look-up leaves it in one of these states. A look-up may
fail, but then it fails whenever it is made.

What an attempt that looks things up comes to in such states follows from the view
(`Attempt.Ensures.lookUp`).
-/

namespace NetAudit

variable {σ α β ε : Type}

/-- What a store answers to those who look at its results. -/
structure View where
  summary : SummaryId → Except StoreError (Option Summary)
  measurement : MeasurementId → Except StoreError (Option Measurement)
  /-- The first entries, at most so many. -/
  entries : Nat → Except StoreError (List (Stored EntryId Entry))

/-- In these states the store answers as the view does, and look-ups leave it in them. -/
structure Store.Shows (store : Store σ) (states : σ → Prop) (v : View) : Prop where
  summary : ∀ id s, states s → states (store.summary id s).2 ∧
    (store.summary id s).1 = v.summary id
  measurement : ∀ id s, states s → states (store.measurement id s).2 ∧
    (store.measurement id s).1 = v.measurement id
  entries : ∀ limit s, states s → states (store.entries limit s).2 ∧
    (store.entries limit s).1 = v.entries limit

/-- What a store answers in one state. -/
def Store.viewAt (store : Store σ) (s : σ) : View where
  summary id := (store.summary id s).1
  measurement id := (store.measurement id s).1
  entries limit := (store.entries limit s).1

/-- A store that looking leaves as it is shows what it answers. -/
theorem Store.shows_of_kept {store : Store σ} {s : σ} (hsummary : ∀ id, (store.summary id s).2 = s)
    (hmeasurement : ∀ id, (store.measurement id s).2 = s)
    (hentries : ∀ limit, (store.entries limit s).2 = s) :
    store.Shows (· = s) (store.viewAt s) where
  summary id t ht := by
    subst ht
    exact ⟨hsummary id, rfl⟩
  measurement id t ht := by
    subst ht
    exact ⟨hmeasurement id, rfl⟩
  entries limit t ht := by
    subst ht
    exact ⟨hentries limit, rfl⟩

/-- What an archive answers. -/
def Archive.view (a : Archive) : View where
  summary id := .ok (a.summary? id)
  measurement id := .ok (a.measurements.find? id)
  entries limit := .ok (a.entries.take limit)

/-- An archive stays as it is. -/
theorem Archive.store_shows (a : Archive) : Archive.store.Shows (· = a) a.view :=
  Store.shows_of_kept (fun _ => rfl) (fun _ => rfl) fun _ => rfl

/-! ## Answers that may be missing

A look-up fails, finds nothing, or finds a value. What a dashboard does depends on whether it failed
and on what was found. -/

/-- The error, if there is no answer. -/
def faultOf : Except ε α → Option ε
  | .error e => some e
  | .ok _ => none

/-- What was found, if anything was. -/
def foundIn : Except ε (Option α) → Option α
  | .ok found => found
  | .error _ => none

/-! ## Attempts in such states

What an attempt ensures is known from the view, as far as the attempt only looks things up. -/

/-- A look-up ends in what the view has, or in a failed query. -/
theorem Attempt.Ensures.lookUp {states : σ → Prop} {op : StoreOp σ α}
    {answer : Except StoreError α} {wanted : Except RunError α → Prop}
    (hop : ∀ s, states s → states (op s).2 ∧ (op s).1 = answer)
    (h : wanted (answer.mapError .query)) : (Attempt.read op).Ensures states wanted := by
  apply Attempt.Ensures.read
  intro s hs
  obtain ⟨hs', hanswer⟩ := hop s hs
  exact ⟨hs', hanswer ▸ h⟩

end NetAudit
