import NetAudit.Log.Action

/-!
# Repair of task references

A measurement may refer to a task that was deleted. Its reference is then cleared, in the store and
in the measurement at hand; the latter also where the store refuses the write.
-/

namespace NetAudit

/-- A measurement after the attempt to repair it, and whether the store holds a repair, or why it
does not. -/
structure Repair where
  measurement : Measurement
  result : Except StoreError Bool

namespace Measurement

variable {σ : Type}

/-- The measurement without its reference to a task. -/
def withoutTask (m : Measurement) : Measurement := { m with task := none }

/-- Clear a reference to a task that the store does not have. -/
def repairTask (store : Store σ) (m : Measurement) : Action σ Repair := do
  match m.task with
  | none => return ⟨m, .ok false⟩
  | some task =>
    match ← Action.ofOp (store.task task) with
    | .error e => return ⟨m, .error e⟩
    | .ok (some _) => return ⟨m, .ok false⟩
    | .ok none =>
      Action.log none (.danglingTask m.id task)
      let answer ← Action.ofOp (store.persistMeasurement m.withoutTask)
      return ⟨m.withoutTask, answer.map fun _ => true⟩

end Measurement

end NetAudit
