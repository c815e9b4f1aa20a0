import NetAudit.Run.Attempt

/-!
# What an action leaves behind

The log of an action never decides what is done next. So what an action answers and what state it
leaves can be computed without it: `Action.outcome` and `Attempt.outcome` forget the log, and the
lemmas here push them through the ways in which actions are put together. What holds of every
outcome of an attempt is said by `Attempt.Ensures`, and of its failures by `Attempt.FailsOnly`.
-/

namespace NetAudit

variable {σ ω α β ε : Type}

/-! ## Actions without their log

The lemmas are equations for each way to make an action, and `simp` computes an outcome with
them. -/

namespace Action

/-- The answer of an action and the state after it. -/
def outcome (x : Action σ α) (s : σ) : α × σ := ((x s).value, (x s).state)

@[simp] theorem outcome_pure (a : α) (s : σ) : outcome (pure a) s = (a, s) := rfl

@[simp] theorem outcome_bind (x : Action σ α) (f : α → Action σ β) (s : σ) :
    outcome (x >>= f) s = outcome (f (outcome x s).1) (outcome x s).2 := rfl

@[simp] theorem outcome_log (c : Option LogContext) (e : Event) (s : σ) :
    outcome (log c e : Action σ Unit) s = ((), s) := rfl

@[simp] theorem outcome_logAll (entries : List LogEntry) (s : σ) :
    outcome (logAll entries : Action σ Unit) s = ((), s) := rfl

@[simp] theorem outcome_ofOp (op : σ → α × σ) (s : σ) : outcome (ofOp op) s = op s := rfl

/-- Only what is done after the first of two actions matters, at the state which that leaves. -/
theorem bind_apply_congr {x : Action σ α} {f g : α → Action σ β} {s : σ}
    (h : f (x s).value (x s).state = g (x s).value (x s).state) : (x >>= f) s = (x >>= g) s := by
  rw [bind_apply, bind_apply, h]

end Action

/-! ## Attempts without their log

An attempt may have failed, and then what comes after it is not done. So of two attempts in a row
there are two cases, and with a first one that succeeds the second one goes on from there. -/

namespace Attempt

/-- The answer or failure of an attempt and the state after it. -/
def outcome (x : Attempt σ α) (s : σ) : Except RunError α × σ := Action.outcome x.run s

@[simp] theorem outcome_pure (a : α) (s : σ) : outcome (pure a) s = (.ok a, s) := rfl

/-- What follows a failure is not done. -/
theorem outcome_bind (x : Attempt σ α) (f : α → Attempt σ β) (s : σ) :
    outcome (x >>= f) s =
      match outcome x s with
      | (.ok a, s) => outcome (f a) s
      | (.error e, s) => (.error e, s) := by
  show Action.outcome (x >>= f).run s = _
  rw [ExceptT.run_bind, Action.outcome_bind]
  show Action.outcome _ (outcome x s).2 = _
  rcases hx : outcome x s with ⟨answer, s'⟩
  have hval : (Action.outcome x.run s).1 = answer := congrArg Prod.fst hx
  cases answer with
  | ok a =>
      rw [hval]
      rfl
  | error e =>
      rw [hval]
      rfl

theorem outcome_bind_ok {x : Attempt σ α} {f : α → Attempt σ β} {s s' : σ} {a : α}
    (h : x.outcome s = (.ok a, s')) : outcome (x >>= f) s = (f a).outcome s' := by
  rw [outcome_bind, h]

theorem outcome_bind_error {x : Attempt σ α} {f : α → Attempt σ β} {s s' : σ} {e : RunError}
    (h : x.outcome s = (.error e, s')) : outcome (x >>= f) s = (.error e, s') := by
  rw [outcome_bind, h]

/-- Where two attempts in a row give an answer, the first of them gives one. -/
theorem exists_of_outcome_bind {x : Attempt σ α} {f : α → Attempt σ β} {s s' : σ} {b : β}
    (h : outcome (x >>= f) s = (.ok b, s')) :
    ∃ a s₁, x.outcome s = (.ok a, s₁) ∧ (f a).outcome s₁ = (.ok b, s') := by
  rcases hx : x.outcome s with ⟨e | a, s₁⟩
  · rw [outcome_bind_error hx] at h
    cases h
  · rw [outcome_bind_ok hx] at h
    exact ⟨a, s₁, rfl, h⟩

/-- What neither of two attempts changes, both in a row do not change. -/
theorem frame_bind {view : σ → ω} {x : Attempt σ α} {f : α → Attempt σ β}
    (hx : ∀ s, view (x.outcome s).2 = view s) (hf : ∀ a s, view ((f a).outcome s).2 = view s)
    (s : σ) : view (outcome (x >>= f) s).2 = view s := by
  rcases hfirst : x.outcome s with ⟨e | a, s₁⟩
  · have hs := hx s
    rw [hfirst] at hs
    rw [outcome_bind_error hfirst]
    exact hs
  · have hs := hx s
    rw [hfirst] at hs
    rw [outcome_bind_ok hfirst]
    exact (hf a s₁).trans hs

@[simp] theorem outcome_of (x : Action σ α) (s : σ) :
    outcome (of x) s = (.ok (x.outcome s).1, (x.outcome s).2) := rfl

@[simp] theorem outcome_log (c : Option LogContext) (e : Event) (s : σ) :
    outcome (log c e : Attempt σ Unit) s = (.ok (), s) := rfl

/-- What is asked for is answered, or the refusal becomes a failure. -/
theorem outcome_ask (c : Option LogContext) (event : ε → Event) (error : ε → RunError)
    (op : Action σ (Except ε α)) (s : σ) :
    outcome (ask c event error op) s = ((op.outcome s).1.mapError error, (op.outcome s).2) := by
  unfold ask
  rw [outcome_bind_ok (outcome_of op s)]
  rcases op.outcome s with ⟨answer, s'⟩
  cases answer with
  | ok a => rfl
  | error e =>
      show outcome (log c (event e) >>= fun _ => fail (error e)) s' = _
      rw [outcome_bind_ok (outcome_log c (event e) s')]
      rfl

/-- What a store answers is answered, or the query has failed. -/
theorem outcome_read (op : StoreOp σ α) (s : σ) :
    outcome (read op) s = ((op s).1.mapError .query, (op s).2) := by
  unfold read
  rw [outcome_bind_ok (outcome_of _ s), Action.outcome_ofOp]
  rcases op s with ⟨e | a, s'⟩ <;> rfl

/-! ## What attempts ensure

An attempt is made in some states, and is to leave one of them and to end as it is wanted. Of two
attempts in a row, the second one is made in the states that the first one leaves; so what is wanted
of the first one is that the second one ensures the rest (`Ensures.bind`). -/

/-- Made in one of these states, the attempt leaves one of them, and ends in a way that is
wanted. -/
def Ensures (x : Attempt σ α) (states : σ → Prop) (wanted : Except RunError α → Prop) : Prop :=
  ∀ s, states s → states (x.outcome s).2 ∧ wanted (x.outcome s).1

namespace Ensures

variable {states : σ → Prop}

theorem perform {x : Attempt σ α} {wanted : Except RunError α → Prop}
    (h : x.Ensures states wanted) {s : σ} (hs : states s) : wanted (x.perform s).value := (h s hs).2

theorem mono {x : Attempt σ α} {wanted weaker : Except RunError α → Prop}
    (h : x.Ensures states wanted) (himp : ∀ r, wanted r → weaker r) : x.Ensures states weaker :=
  fun s hs => (h s hs).imp_right (himp _)

theorem ofExcept {answer : Except RunError α} {wanted : Except RunError α → Prop}
    (h : wanted answer) : (Attempt.ofExcept answer : Attempt σ α).Ensures states wanted :=
  fun _ hs => ⟨hs, h⟩

theorem pure {a : α} {wanted : Except RunError α → Prop} (h : wanted (.ok a)) :
    (Pure.pure a : Attempt σ α).Ensures states wanted := ofExcept h

/-- **One attempt after another**: what the first one ends in decides what is left to be shown. -/
theorem bind {x : Attempt σ α} {f : α → Attempt σ β} {wanted : Except RunError β → Prop}
    (h : x.Ensures states fun r => match r with
      | .ok a => (f a).Ensures states wanted
      | .error e => wanted (.error e)) : (x >>= f).Ensures states wanted := by
  intro s hs
  obtain ⟨hs', hwanted⟩ := h s hs
  rw [outcome_bind]
  rcases hx : x.outcome s with ⟨e | a, s'⟩
  · rw [hx] at hs' hwanted
    exact ⟨hs', hwanted⟩
  · rw [hx] at hs' hwanted
    exact hwanted s' hs'

theorem of {x : Action σ α} {wanted : Except RunError α → Prop}
    (h : ∀ s, states s → states (x.outcome s).2 ∧ wanted (.ok (x.outcome s).1)) :
    (Attempt.of x).Ensures states wanted := h

theorem log {c : Option LogContext} {event : Event} {wanted : Except RunError Unit → Prop}
    (h : wanted (.ok ())) : (Attempt.log c event : Attempt σ Unit).Ensures states wanted :=
  of fun _ hs => ⟨hs, h⟩

theorem ask {c : Option LogContext} {event : ε → Event} {error : ε → RunError}
    {op : Action σ (Except ε α)} {wanted : Except RunError α → Prop}
    (h : ∀ s, states s →
      states (op.outcome s).2 ∧ wanted ((op.outcome s).1.mapError error)) :
    (Attempt.ask c event error op).Ensures states wanted := by
  intro s hs
  rw [outcome_ask]
  exact h s hs

theorem read {op : StoreOp σ α} {wanted : Except RunError α → Prop}
    (h : ∀ s, states s → states (op s).2 ∧ wanted ((op s).1.mapError .query)) :
    (Attempt.read op).Ensures states wanted := by
  intro s hs
  rw [outcome_read]
  exact h s hs

end Ensures

/-! ## What attempts fail for

Nothing is said of the states here, and nothing of an answer. -/

/-- If the attempt fails, then so. -/
def FailsOnly (P : RunError → Prop) (x : Attempt σ α) : Prop :=
  x.Ensures (fun _ => True) fun answer => ∀ e, answer = .error e → P e

namespace FailsOnly

variable {P : RunError → Prop}

theorem error_of_outcome {x : Attempt σ α} (h : x.FailsOnly P) {s : σ} {e : RunError}
    (he : (x.outcome s).1 = .error e) : P e := (h s trivial).2 e he

theorem ofExcept {answer : Except RunError α} (h : ∀ e, answer = .error e → P e) :
    FailsOnly P (Attempt.ofExcept answer : Attempt σ α) := Ensures.ofExcept h

theorem pure (a : α) : FailsOnly P (Pure.pure a : Attempt σ α) := Ensures.pure fun _ h => nomatch h

theorem fail {e : RunError} (h : P e) : FailsOnly P (Attempt.fail e : Attempt σ α) := by
  apply ofExcept
  rintro _ ⟨⟩
  exact h

theorem of (x : Action σ α) : FailsOnly P (Attempt.of x) :=
  Ensures.of fun _ _ => ⟨trivial, fun _ h => nomatch h⟩

theorem log (c : Option LogContext) (event : Event) :
    FailsOnly P (Attempt.log c event : Attempt σ Unit) := of _

theorem bind {x : Attempt σ α} {f : α → Attempt σ β} (hx : x.FailsOnly P)
    (hf : ∀ a, (f a).FailsOnly P) : FailsOnly P (x >>= f) := by
  refine Ensures.bind (hx.mono fun answer h => ?_)
  cases answer with
  | ok a => exact hf a
  | error e =>
      rintro _ ⟨⟩
      exact h e rfl

theorem ask (c : Option LogContext) (event : ε → Event) {error : ε → RunError}
    (op : Action σ (Except ε α)) (h : ∀ e, P (error e)) :
    FailsOnly P (Attempt.ask c event error op) := by
  refine Ensures.ask fun s _ => ⟨trivial, ?_⟩
  cases (op.outcome s).1 with
  | ok a => exact fun _ h => nomatch h
  | error reason =>
      rintro _ ⟨⟩
      exact h reason

theorem forM {f : α → Attempt σ Unit} (h : ∀ a, (f a).FailsOnly P) (as : List α) :
    FailsOnly P (as.forM f) := by
  induction as with
  | nil => exact pure ()
  | cons a as ih =>
      show FailsOnly P (f a >>= fun _ => as.forM f)
      exact bind (h a) fun _ => ih

theorem mapM {f : α → Attempt σ β} (h : ∀ a, (f a).FailsOnly P) (as : List α) :
    FailsOnly P (as.mapM f) := by
  induction as with
  | nil => exact pure []
  | cons a as ih =>
      rw [List.mapM_cons]
      exact bind (h a) fun b => bind ih fun bs => pure (b :: bs)

end FailsOnly

end Attempt

end NetAudit
