import NetAudit.Store.Basic

/-!
# A store with prepared answers

A `Script` answers queries from a list, whatever they ask for, and keeps what it was asked. After
the last answer there are only errors. Nothing else can be done with it.
-/

namespace NetAudit

/-- What a query asked for. -/
structure AskedPage where
  query : Query
  pageSize : Nat
  cursor : Option String
deriving DecidableEq

/-- The answers to come, and what was asked so far. -/
structure Script where
  answers : List (Except StoreError Page)
  asked : List AskedPage

namespace Script

/-- Give the next answer. -/
def answer (q : Query) (pageSize : Nat) (cursor : Option String) : StoreOp Script Page := fun s =>
  let asked := s.asked ++ [⟨q, pageSize, cursor⟩]
  match s.answers with
  | [] => (.error (.backend "script ended"), ⟨[], asked⟩)
  | a :: rest => (a, ⟨rest, asked⟩)

/-- What no script does. -/
def refuse : StoreOp Script α := fun s => (.error (.backend "script ended"), s)

/-- The store that answers from a script. -/
def store : Store Script where
  query := answer
  measurement _ := refuse
  device _ := refuse
  task _ := refuse
  persistMeasurement _ := refuse
  persistSummary _ := refuse
  persistEntry _ := refuse
  summary _ := refuse
  summaries _ := refuse
  entries _ := refuse
  pageBound s := s.answers.length + 1

end Script

end NetAudit
