import NetAudit.Proofs.Store.Shared
import NetAudit.Store.Script

/-!
# What stores answer

A store may answer a query as it likes: with pages of any length, empty ones among them, or with an
error. `Store.Gives` says what it answers when it is asked for page after page, each with the cursor
that the page before it named. How many of these pages are asked for depends on how many
measurements are wanted (`Answers.asked`).
-/

namespace NetAudit

variable {σ : Type}

/-! ## Answers

An answer is a page or an error. An error ends the pages, so it comes behind all the
measurements. -/

/-- The answers to the pages of a query, the first page first. -/
abbrev Answers := List (Except StoreError Page)

/-- The measurements in an answer. -/
def answeredRecords : Except StoreError Page → List Measurement
  | .ok p => p.records
  | .error _ => []

/-- The cursor in an answer. -/
def answeredCursor : Except StoreError Page → Option String
  | .ok p => p.cursor
  | .error _ => none

/-- The error in an answer. -/
def refusal? {α : Type} : Except StoreError α → Option StoreError
  | .ok _ => none
  | .error e => some e

namespace Answers

/-- All measurements, in order. -/
def records (answers : Answers) : List Measurement := answers.flatMap answeredRecords

/-- The first error. -/
def error? (answers : Answers) : Option StoreError := answers.findSome? refusal?

/-- All measurements, and then the error. -/
def items (answers : Answers) : List (Except StoreError Measurement) :=
  answers.records.map .ok ++ answers.error?.toList.map .error

theorem items_cons (p : Page) (rest : Answers) :
    items (.ok p :: rest) = p.records.map .ok ++ rest.items := by
  show (p.records ++ rest.records).map _ ++ rest.error?.toList.map _ = _
  rw [List.map_append, List.append_assoc]
  rfl

/-- The pages that are asked for, from a cursor on, until they have as many measurements as are
wanted. -/
def asked (q : Query) (n : Nat) : Option String → Answers → Nat → List AskedPage
  | _, [], _ => []
  | _, _, 0 => []
  | cursor, answer :: rest, wanted + 1 =>
    ⟨q, n, cursor⟩ ::
      asked q n (answeredCursor answer) rest (wanted + 1 - (answeredRecords answer).length)

theorem asked_zero (q : Query) (n : Nat) (cursor : Option String) (answers : Answers) :
    answers.asked q n cursor 0 = [] := by
  cases answers <;> rfl

/-- **A page is asked for** if too few measurements stand on those before it, with the cursor that
the one before it named. -/
theorem getElem?_asked (q : Query) (n : Nat) (cursor : Option String) (answers : Answers)
    (wanted i : Nat) :
    (answers.asked q n cursor wanted)[i]? =
      if i < answers.length ∧ (records (answers.take i)).length < wanted then
        (cursor :: answers.map answeredCursor)[i]?.map (⟨q, n, ·⟩)
      else none := by
  induction answers generalizing cursor wanted i with
  | nil => rfl
  | cons answer rest ih =>
      cases wanted with
      | zero => simp [asked_zero]
      | succ wanted =>
          cases i with
          | zero => simp [asked, records]
          | succ i =>
              -- The first page is asked for, and what it brings is no longer wanted of the others.
              have hrecords : (records ((answer :: rest).take (i + 1))).length =
                  (answeredRecords answer).length + (records (rest.take i)).length :=
                List.length_append
              rw [asked, List.getElem?_cons_succ, ih, hrecords]
              have hiff : (i < rest.length ∧ (records (rest.take i)).length <
                    wanted + 1 - (answeredRecords answer).length) ↔
                  (i + 1 < (answer :: rest).length ∧
                    (answeredRecords answer).length + (records (rest.take i)).length <
                      wanted + 1) := by
                rw [List.length_cons]
                omega
              simp only [hiff]
              rfl

theorem lt_length_asked_iff {q : Query} {n : Nat} {cursor : Option String} {answers : Answers}
    {wanted i : Nat} :
    i < (answers.asked q n cursor wanted).length ↔
      i < answers.length ∧ (records (answers.take i)).length < wanted := by
  have hi := getElem?_asked q n cursor answers wanted i
  rw [← Nat.not_le, ← List.getElem?_eq_none_iff, hi]
  split
  · next h =>
      have hlt : i < (cursor :: answers.map answeredCursor).length := by
        rw [List.length_cons, List.length_map]
        omega
      simp [h, List.getElem?_eq_getElem hlt]
  · next h => simp [h]

end Answers

/-! ## Stores that give answers

The bound of a store counts pages, so that loops over it come to an end; a store that gives answers
has a bound that counts all of them. -/

/-- Asked for the pages of a query one after the other, each with the cursor that the one before it
named, the store gives these answers, up to a page without a cursor or an error. Its bound counts
those that are still to come. -/
inductive Store.Gives (store : Store σ) (q : Query) (n : Nat) : Option String → σ → Answers → Prop
  | error {cursor : Option String} {s s' : σ} {e : StoreError}
      (hquery : store.query q n cursor s = (.error e, s')) (hbound : 0 < store.pageBound s) :
      store.Gives q n cursor s [.error e]
  | last {cursor : Option String} {s s' : σ} {p : Page}
      (hquery : store.query q n cursor s = (.ok p, s')) (hbound : 0 < store.pageBound s)
      (hcursor : p.cursor = none) : store.Gives q n cursor s [.ok p]
  | more {cursor : Option String} {s s' : σ} {p : Page} {rest : Answers}
      (hquery : store.query q n cursor s = (.ok p, s')) (hbound : rest.length < store.pageBound s)
      (hcursor : p.cursor.isNone = false) (hrest : store.Gives q n p.cursor s' rest) :
      store.Gives q n cursor s (.ok p :: rest)

/-! ## Notes of what is asked

With notes, a store answers as it does without. -/

/-- The store with notes of the pages that it is asked for. -/
def Store.noting (store : Store σ) : Store (σ × List AskedPage) :=
  { store.zoom Prod.fst fun s w => (s, w.2) with
    query := fun q n cursor w =>
      let (answer, s) := store.query q n cursor w.1
      (answer, s, w.2 ++ [⟨q, n, cursor⟩]) }

theorem Store.noting_query {store : Store σ} {q : Query} {n : Nat} {cursor : Option String}
    {s s' : σ} {answer : Except StoreError Page} (h : store.query q n cursor s = (answer, s'))
    (asked : List AskedPage) :
    store.noting.query q n cursor (s, asked) = (answer, s', asked ++ [⟨q, n, cursor⟩]) := by
  show ((store.query q n cursor s).1, (store.query q n cursor s).2, _) = _
  rw [h]

theorem Store.Gives.noting {store : Store σ} {q : Query} {n : Nat} {cursor : Option String} {s : σ}
    {answers : Answers} (h : store.Gives q n cursor s answers) (asked : List AskedPage) :
    store.noting.Gives q n cursor (s, asked) answers := by
  induction h generalizing asked with
  | error hquery hbound => exact .error (Store.noting_query hquery asked) hbound
  | last hquery hbound hcursor => exact .last (Store.noting_query hquery asked) hbound hcursor
  | more hquery hbound hcursor _ ih =>
      exact .more (Store.noting_query hquery asked) hbound hcursor (ih _)
/-- An answer that is not the last is a page with a cursor. -/
theorem Store.Gives.exists_cursor {store : Store σ} {q : Query} {n : Nat} {cursor : Option String}
    {s : σ} {answers : Answers} (h : store.Gives q n cursor s answers) {i : Nat}
    (hi : i + 1 < answers.length) :
    ∃ p c, answers[i]? = some (.ok p) ∧ p.cursor = some c := by
  induction h generalizing i with
  | error => exact absurd hi (by simp)
  | last => exact absurd hi (by simp)
  | @more cursor s s' p rest hquery hbound hcursor hrest ih =>
      cases i with
      | zero =>
          obtain ⟨c, hc⟩ := Option.isSome_iff_exists.1 (Option.isNone_eq_false_iff.1 hcursor)
          exact ⟨p, c, rfl, hc⟩
      | succ i => exact ih (by simpa using hi)

end NetAudit
