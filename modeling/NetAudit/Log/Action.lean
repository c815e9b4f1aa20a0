import NetAudit.Log.Event

/-!
# Actions that write a log

An `Action σ α` works on a state of type `σ`, gives an answer of type `α` and writes log entries.
The entries of two actions in a row are those of the first followed by those of the second.
-/

namespace NetAudit

/-- What is there after an action: its answer, the state, and what it wrote to the log. -/
structure Done (σ α : Type) where
  value : α
  state : σ
  log : List LogEntry

/-- Something that is done to a state and writes a log. -/
def Action (σ α : Type) := σ → Done σ α

namespace Action

variable {σ ω α β : Type}

/-- Do nothing, and answer `a`. -/
protected def pure (a : α) : Action σ α := fun s => ⟨a, s, []⟩

/-- Do one thing and then another, which may depend on the answer of the first. -/
protected def bind (x : Action σ α) (f : α → Action σ β) : Action σ β := fun s =>
  let first := x s
  let second := f first.value first.state
  ⟨second.value, second.state, first.log ++ second.log⟩

instance : Monad (Action σ) where
  pure := Action.pure
  bind := Action.bind

instance : LawfulMonad (Action σ) := LawfulMonad.mk' _
  (fun x => by
    funext s
    simp [Functor.map, Action.bind, Action.pure])
  (fun a f => by
    funext s
    simp [pure, bind, Action.bind, Action.pure])
  (fun x f g => by
    funext s
    simp [bind, Action.bind])

/-- The present state. -/
def state : Action σ σ := fun s => ⟨s, s, []⟩

/-- Write an entry to the log. -/
def log (context : Option LogContext) (event : Event) : Action σ Unit := fun s =>
  ⟨(), s, [⟨context, event⟩]⟩

/-- Write entries to the log. -/
def logAll (entries : List LogEntry) : Action σ Unit := fun s => ⟨(), s, entries⟩

/-- An operation that writes nothing to the log. -/
def ofOp (op : σ → α × σ) : Action σ α := fun s =>
  let (a, s) := op s
  ⟨a, s, []⟩

/-- The action on a part of a larger state. -/
def zoom (get : ω → σ) (set : σ → ω → ω) (x : Action σ α) : Action ω α := fun w =>
  let done := x (get w)
  ⟨done.value, set done.state w, done.log⟩

/-! ### Steps in a row -/

/-- The steps after others that have `written`, the last entry first, to the log. -/
def stepsAfter (f : Nat → α → Action σ (Option α)) :
    Nat → Nat → α → σ → List LogEntry → Done σ α
  | 0, _, a, s, written => ⟨a, s, written.reverse⟩
  | count + 1, i, a, s, written =>
    let done := f i a s
    let written := done.log.reverseAux written
    match done.value with
    | none => ⟨a, done.state, written.reverse⟩
    | some a => stepsAfter f count (i + 1) a done.state written

/-- Take up to `count` steps, which are numbered from `i` on, each with what the one before it gave,
until one gives nothing. -/
def steps (f : Nat → α → Action σ (Option α)) (count i : Nat) (a : α) : Action σ α := fun s =>
  stepsAfter f count i a s []

/-! ### What is there after an action -/

@[simp] theorem pure_apply (a : α) (s : σ) : (pure a : Action σ α) s = ⟨a, s, []⟩ := rfl

@[simp] theorem bind_apply (x : Action σ α) (f : α → Action σ β) (s : σ) :
    (x >>= f) s =
      ⟨(f (x s).value (x s).state).value, (f (x s).value (x s).state).state,
        (x s).log ++ (f (x s).value (x s).state).log⟩ := rfl

@[simp] theorem state_apply (s : σ) : (state : Action σ σ) s = ⟨s, s, []⟩ := rfl

@[simp] theorem log_apply (c : Option LogContext) (e : Event) (s : σ) :
    (log c e : Action σ Unit) s = ⟨(), s, [⟨c, e⟩]⟩ := rfl

@[simp] theorem logAll_apply (entries : List LogEntry) (s : σ) :
    (logAll entries : Action σ Unit) s = ⟨(), s, entries⟩ := rfl

@[simp] theorem ofOp_apply (op : σ → α × σ) (s : σ) : ofOp op s = ⟨(op s).1, (op s).2, []⟩ := rfl

/-- What was written before stands before what the steps write. -/
theorem stepsAfter_eq (f : Nat → α → Action σ (Option α)) (count i : Nat) (a : α) (s : σ)
    (written : List LogEntry) :
    stepsAfter f count i a s written =
      ⟨(steps f count i a s).value, (steps f count i a s).state,
        written.reverse ++ (steps f count i a s).log⟩ := by
  induction count generalizing i a s written with
  | zero => simp [steps, stepsAfter]
  | succ count ih =>
    simp only [steps, stepsAfter]
    split
    · simp [List.reverseAux_eq]
    · rw [ih, ih _ _ _ (List.reverseAux _ [])]
      simp [List.reverseAux_eq]

/-- The first step, and those after it if it gives something. -/
theorem steps_succ (f : Nat → α → Action σ (Option α)) (count i : Nat) (a : α) :
    steps f (count + 1) i a = f i a >>= fun b => b.elim (pure a) (steps f count (i + 1)) := by
  funext s
  simp only [steps, stepsAfter, bind_apply]
  split <;> simp_all [stepsAfter_eq, List.reverseAux_eq]

end Action

end NetAudit
