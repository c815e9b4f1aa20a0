/-!
# Ways to end

What is computed may come to a value, or it may panic: then there is no value, and whatever was
waiting for one panics too. A panic is not an error. An error is a value, which one who asked can
look at and go on with, so something that may fail and may panic ends in an `Ending (Except ε α)`.
-/

namespace NetAudit

/-- How a computation ends. -/
inductive Ending (α : Type) where
  | returned (a : α)
  | panicked
deriving DecidableEq, Repr

namespace Ending

variable {α β : Type}

/-- Go on with a value, if there is one. -/
protected def bind : Ending α → (α → Ending β) → Ending β
  | returned a, f => f a
  | panicked, _ => panicked

instance : Monad Ending where
  pure := returned
  bind := Ending.bind

@[simp] theorem pure_eq (a : α) : (pure a : Ending α) = returned a := rfl

@[simp] theorem returned_bind (a : α) (f : α → Ending β) : returned a >>= f = f a := rfl

@[simp] theorem panicked_bind (f : α → Ending β) : panicked >>= f = panicked := rfl

end Ending

end NetAudit
