import Mathlib.Data.List.Forall2
import NetAudit.Proofs.Action

/-!
# Actions that are compared

Two actions are compared from states that correspond: they come to states that correspond again, to
answers that are related, and to logs that match (`Action.Relates`). A `Comparison` says which
states correspond and which logs match. Each way in which actions are put together has a lemma here,
once for all comparisons, so that a statement about two programs follows their text.

Two comparisons are in use. `Action.Follows` looks at a part of a large state: to it the one action
does what the other does to that part alone, log included. `Action.Agree` compares two actions on
the same state and leaves the log out.
-/

namespace NetAudit

variable {σ ω α β γ δ ε : Type}

/-! ## Comparisons

Logs that match have to be put together to logs that match, so that a comparison can go through two
actions part by part. -/

/-- Which states correspond, and which logs match. Logs that are put together of matching ones
match. -/
structure Comparison (σ ω : Type) where
  states : σ → ω → Prop
  logs : List LogEntry → List LogEntry → Prop
  nil : logs [] []
  append : ∀ {l l' m m'}, logs l m → logs l' m' → logs (l ++ l') (m ++ m')

/-- What is there after two actions corresponds, and their answers are related. -/
structure Done.Relates (c : Comparison σ ω) (R : α → β → Prop) (d : Done σ α) (e : Done ω β) :
    Prop where
  value : R d.value e.value
  state : c.states d.state e.state
  log : c.logs d.log e.log

/-- From states that correspond, the actions come to what corresponds, with related answers. -/
def Action.Relates (c : Comparison σ ω) (R : α → β → Prop) (x : Action σ α) (y : Action ω β) :
    Prop := ∀ s t, c.states s t → (x s).Relates c R (y t)

/-- Two answers are related, or both are the same failure. -/
def RunError.Agree (R : α → β → Prop) : Except RunError α → Except RunError β → Prop
  | .ok a, .ok b => R a b
  | .error e, .error e' => e = e'
  | _, _ => False

/-- From states that correspond, the attempts come to what corresponds, with related answers or with
the same failure. -/
def Attempt.Relates (c : Comparison σ ω) (R : α → β → Prop) (x : Attempt σ α) (y : Attempt ω β) :
    Prop := Action.Relates c (RunError.Agree R) x.run y.run

theorem RunError.Agree.eq {x y : Except RunError α} (h : Agree Eq x y) : x = y := by
  cases x <;> cases y
  case error.error => exact congrArg Except.error h
  case ok.ok => exact congrArg Except.ok h
  all_goals exact h.elim

/-- Answers that have the same image are the same but for it. -/
theorem RunError.Agree.map_eq {f : α → γ} {x y : Except RunError α}
    (h : Agree (fun a b => f a = f b) x y) : y.map f = x.map f := by
  cases x <;> cases y
  case error.error => exact congrArg Except.error (Eq.symm h)
  case ok.ok => exact congrArg Except.ok (Eq.symm h)
  all_goals exact h.elim

/-! ## Actions that are put together

The answer of a first action decides what is done next. So the second actions have to be related for
all answers that are; where these are equal (`bind_eq`), it is enough that they are related for each
answer. -/

namespace Action.Relates

variable {c : Comparison σ ω} {R : α → β → Prop} {S : γ → δ → Prop}

theorem pure {a : α} {b : β} (h : R a b) :
    Relates c R (Pure.pure a : Action σ α) (Pure.pure b) := fun _ _ hst => ⟨h, hst, c.nil⟩

theorem bind {x : Action σ α} {y : Action ω β} {f : α → Action σ γ} {g : β → Action ω δ}
    (hx : x.Relates c R y) (hf : ∀ a b, R a b → (f a).Relates c S (g b)) :
    Relates c S (x >>= f) (y >>= g) := by
  intro s t hst
  -- The second actions begin with related answers, in states that correspond.
  obtain ⟨hvalue, hstate, hlog⟩ := hx s t hst
  obtain ⟨hvalue', hstate', hlog'⟩ := hf _ _ hvalue _ _ hstate
  exact ⟨hvalue', hstate', c.append hlog hlog'⟩

theorem bind_eq {x : Action σ α} {y : Action ω α} {f : α → Action σ γ} {g : α → Action ω δ}
    (hx : x.Relates c Eq y) (hf : ∀ a, (f a).Relates c S (g a)) :
    Relates c S (x >>= f) (y >>= g) := by
  apply bind hx
  rintro a _ rfl
  exact hf a

theorem log {p p' : Option LogContext} {e e' : Event} (h : c.logs [⟨p, e⟩] [⟨p', e'⟩]) :
    Relates c Eq (Action.log p e) (Action.log p' e') := fun _ _ hst => ⟨rfl, hst, h⟩

theorem logAll {entries entries' : List LogEntry} (h : c.logs entries entries') :
    Relates c Eq (Action.logAll entries) (Action.logAll entries') := fun _ _ hst => ⟨rfl, hst, h⟩

theorem foldlM {f : α → ε → Action σ α} {g : β → ε → Action ω β}
    (h : ∀ a b i, R a b → (f a i).Relates c R (g b i)) (is : List ε) {a : α} {b : β} (hab : R a b) :
    Relates c R (is.foldlM f a) (is.foldlM g b) := by
  induction is generalizing a b with
  | nil => exact pure hab
  | cons i is ih =>
      rw [List.foldlM_cons, List.foldlM_cons]
      exact bind (h a b i hab) fun _ _ => ih

theorem foldlM_eq {f : α → ε → Action σ α} {g : α → ε → Action ω α}
    (h : ∀ a i, (f a i).Relates c Eq (g a i)) (is : List ε) (a : α) :
    Relates c Eq (is.foldlM f a) (is.foldlM g a) := by
  refine foldlM ?_ is rfl
  rintro a _ i rfl
  exact h a i

theorem steps {f : Nat → α → Action σ (Option α)} {g : Nat → α → Action ω (Option α)}
    (h : ∀ i a, (f i a).Relates c Eq (g i a)) (count i : Nat) (a : α) :
    Relates c Eq (Action.steps f count i a) (Action.steps g count i a) := by
  induction count generalizing i a with
  | zero => exact pure rfl
  | succ count ih =>
      rw [Action.steps_succ, Action.steps_succ]
      refine bind_eq (h i a) fun next => ?_
      cases next with
      | none => exact pure rfl
      | some b => exact ih (i + 1) b

end Action.Relates

/-! ## Attempts that are put together

After a failure nothing is done, on either side; so attempts are put together as actions are, and
only answers are looked at. -/

namespace Attempt.Relates

variable {c : Comparison σ ω} {R : α → β → Prop} {S : γ → δ → Prop}

theorem ofExcept {answer : Except RunError α} {answer' : Except RunError β}
    (h : RunError.Agree R answer answer') :
    Relates c R (Attempt.ofExcept answer : Attempt σ α) (Attempt.ofExcept answer') :=
  Action.Relates.pure h

theorem pure {a : α} {b : β} (h : R a b) :
    Relates c R (Pure.pure a : Attempt σ α) (Pure.pure b) := ofExcept h

theorem fail (e : RunError) :
    Relates c R (Attempt.fail e : Attempt σ α) (Attempt.fail e : Attempt ω β) := ofExcept rfl

theorem bind {x : Attempt σ α} {y : Attempt ω β} {f : α → Attempt σ γ} {g : β → Attempt ω δ}
    (hx : x.Relates c R y) (hf : ∀ a b, R a b → (f a).Relates c S (g b)) :
    Relates c S (x >>= f) (y >>= g) := by
  unfold Relates
  rw [ExceptT.run_bind, ExceptT.run_bind]
  apply Action.Relates.bind hx
  intro answer answer' hanswers
  cases answer <;> cases answer'
  case error.error => exact Action.Relates.pure hanswers
  case ok.ok => exact hf _ _ hanswers
  all_goals exact hanswers.elim

theorem bind_eq {x : Attempt σ α} {y : Attempt ω α} {f : α → Attempt σ γ} {g : α → Attempt ω δ}
    (hx : x.Relates c Eq y) (hf : ∀ a, (f a).Relates c S (g a)) :
    Relates c S (x >>= f) (y >>= g) := by
  apply bind hx
  rintro a _ rfl
  exact hf a

theorem of {x : Action σ α} {y : Action ω β} (h : x.Relates c R y) :
    Relates c R (Attempt.of x) (Attempt.of y) :=
  Action.Relates.bind h fun _ _ hab => Attempt.Relates.pure hab

theorem log {p p' : Option LogContext} {e e' : Event} (h : c.logs [⟨p, e⟩] [⟨p', e'⟩]) :
    Relates c Eq (Attempt.log p e) (Attempt.log p' e') := of (.log h)

/-- What is asked for is answered alike, and a refusal is logged alike. -/
theorem ask {p p' : Option LogContext} {event event' : ε → Event} {error : ε → RunError}
    {op : Action σ (Except ε α)} {op' : Action ω (Except ε α)} (hop : op.Relates c Eq op')
    (hlog : ∀ e, c.logs [⟨p, event e⟩] [⟨p', event' e⟩]) :
    Relates c Eq (Attempt.ask p event error op) (Attempt.ask p' event' error op') := by
  apply bind_eq (of hop)
  intro answer
  cases answer with
  | ok a => exact pure rfl
  | error e => exact bind_eq (log (hlog e)) fun _ => fail _

theorem forM {f : α → Attempt σ Unit} {g : α → Attempt ω Unit}
    (h : ∀ a, (f a).Relates c Eq (g a)) (as : List α) :
    Relates c Eq (as.forM f) (as.forM g) := by
  induction as with
  | nil => exact pure rfl
  | cons a as ih =>
      show Relates c Eq (f a >>= fun _ => as.forM f) (g a >>= fun _ => as.forM g)
      exact bind_eq (h a) fun _ => ih

theorem mapM {f : α → Attempt σ γ} {g : β → Attempt ω δ}
    (h : ∀ a b, R a b → (f a).Relates c S (g b)) {as : List α} {bs : List β}
    (hab : List.Forall₂ R as bs) : Relates c (List.Forall₂ S) (as.mapM f) (bs.mapM g) := by
  induction hab with
  | nil => exact pure .nil
  | cons hfirst hrest ih =>
      rw [List.mapM_cons, List.mapM_cons]
      exact bind (h _ _ hfirst) fun _ _ hc => bind ih fun _ _ hcs => pure (.cons hc hcs)

theorem mapM_eq {f : α → Attempt σ β} {g : α → Attempt ω β} (h : ∀ a, (f a).Relates c Eq (g a))
    (as : List α) : Relates c Eq (as.mapM f) (as.mapM g) := by
  have hall : Relates c (List.Forall₂ Eq) (as.mapM f) (as.mapM g) := by
    refine mapM (R := Eq) ?_ (List.forall₂_refl as)
    rintro a _ rfl
    exact h a
  rw [List.forall₂_eq_eq_eq] at hall
  exact hall

end Attempt.Relates

/-! ## Actions that follow others

A state corresponds to the part of it that is looked at, and logs match if they are equal. -/

/-- The comparison of a state with what is looked at of it. -/
def Comparison.ofView (view : σ → ω) : Comparison σ ω where
  states s t := view s = t
  logs := Eq
  nil := rfl
  append hl hl' := congrArg₂ _ hl hl'

/-- To a part of the state the one action does what the other does to that part alone. -/
def Action.Follows (view : σ → ω) (x : Action σ α) (y : Action ω α) : Prop :=
  x.Relates (.ofView view) Eq y

/-- To a part of the state the one attempt does what the other does to that part alone. -/
def Attempt.Follows (view : σ → ω) (x : Attempt σ α) (y : Attempt ω α) : Prop :=
  x.Relates (.ofView view) Eq y

section Follows

variable {view : σ → ω}

theorem Action.Follows.ofOp {op : σ → α × σ} {ref : ω → α × ω}
    (h : ∀ s, ((op s).1, view (op s).2) = ref (view s)) :
    (Action.ofOp op).Follows view (Action.ofOp ref) := by
  rintro s _ rfl
  exact ⟨congrArg Prod.fst (h s), congrArg Prod.snd (h s), rfl⟩

theorem Action.Follows.log_eq {x : Action σ α} {y : Action ω α} (h : x.Follows view y) (s : σ) :
    (x s).log = (y (view s)).log := (h s _ rfl).log

theorem Action.Follows.outcome_eq {x : Action σ α} {y : Action ω α} (h : x.Follows view y)
    (s : σ) : y.outcome (view s) = ((x.outcome s).1, view (x.outcome s).2) := by
  obtain ⟨hvalue, hstate, -⟩ := h s _ rfl
  exact Prod.ext hvalue.symm hstate.symm

theorem Attempt.Follows.outcome_eq {x : Attempt σ α} {y : Attempt ω α} (h : x.Follows view y)
    (s : σ) : y.outcome (view s) = ((x.outcome s).1, view (x.outcome s).2) := by
  obtain ⟨hvalue, hstate, -⟩ := h s _ rfl
  exact Prod.ext hvalue.eq.symm hstate.symm

/-- All that the one store does, the other does to a part of its state. -/
structure Store.Follows (view : σ → ω) (store : Store σ) (ref : Store ω) : Prop where
  query : ∀ q n cursor s,
    ((store.query q n cursor s).1, view (store.query q n cursor s).2) =
      ref.query q n cursor (view s)
  device : ∀ id s, ((store.device id s).1, view (store.device id s).2) = ref.device id (view s)
  task : ∀ id s, ((store.task id s).1, view (store.task id s).2) = ref.task id (view s)
  persistMeasurement : ∀ m s,
    ((store.persistMeasurement m s).1, view (store.persistMeasurement m s).2) =
      ref.persistMeasurement m (view s)
  persistSummary : ∀ x s,
    ((store.persistSummary x s).1, view (store.persistSummary x s).2) =
      ref.persistSummary x (view s)
  persistEntry : ∀ e s,
    ((store.persistEntry e s).1, view (store.persistEntry e s).2) = ref.persistEntry e (view s)
  pageBound : ∀ s, store.pageBound s = ref.pageBound (view s)

end Follows

/-! ## Actions that agree

States correspond if they are equal, and logs are not compared. -/

/-- The comparison of actions on one state, whatever they write to the log. -/
def Comparison.unlogged (σ : Type) : Comparison σ σ where
  states := Eq
  logs _ _ := True
  nil := trivial
  append _ _ := trivial

/-- Both actions do the same to any state, and their answers are related. -/
def Action.Agree (R : α → β → Prop) (x : Action σ α) (y : Action σ β) : Prop :=
  x.Relates (.unlogged σ) R y

/-- Both attempts do the same to any state, and come to the same failure or to related answers. -/
def Attempt.Agree (R : α → β → Prop) (x : Attempt σ α) (y : Attempt σ β) : Prop :=
  x.Relates (.unlogged σ) R y

theorem Action.Agree.refl (x : Action σ α) : x.Agree Eq x := by
  rintro s _ rfl
  exact ⟨rfl, rfl, trivial⟩

end NetAudit
