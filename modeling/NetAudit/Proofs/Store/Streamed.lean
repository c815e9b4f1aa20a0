import NetAudit.Proofs.Store.Calls
import NetAudit.Proofs.Store.Loops

/-!
# Streams over any store

Whatever a store answers, as long as its answers end, a stream hands out what stands on the pages,
in order and up to the limit, and then the error, if there was one
(`RecordStream.yields_of_gives`). It asks for a page only when it is asked for a measurement that
stands on none of the pages before. A loop over the stream sees the same.
-/

namespace NetAudit

variable {σ : Type}

/-- At most as many of some things as a query has measurements. -/
def Query.cut {α : Type} (q : Query) (l : List α) : List α :=
  match q.limit with
  | none => l
  | some n => l.take n

namespace RecordStream

/-- The pages that a stream asks for in so many calls. -/
def pagesIn (store : Store σ) (s : σ) (q : Query) (pageSize count : Nat) : List AskedPage :=
  ((ofQuery q pageSize).nexts store.noting count (s, [])).state.2

/-- What comes of a stream over the answers of a store. -/
structure Yields (store : Store σ) (s : σ) (q : Query) (pageSize : Nat) (answers : Answers) :
    Prop where
  /-- Each call gives the next of the measurements, up to the limit; if it is not reached, then the
  error behind the last one, if there is one; and from then on nothing. -/
  calls : ∀ count, ((ofQuery q pageSize).nexts store.noting count (s, [])).value.1 =
    (List.range count).map fun i => (q.cut answers.items)[i]?
  /-- A page is asked for just when fewer measurements stand on those before it than there are
  calls, and fewer than the limit. -/
  needed : ∀ count i, i < (pagesIn store s q pageSize count).length ↔
    i < answers.length ∧ (Answers.records (answers.take i)).length < count ∧
      ∀ n, q.limit = some n → (Answers.records (answers.take i)).length < n
  /-- The first page is asked for without a cursor, and no page is asked to be empty. -/
  first : ∀ count x, (pagesIn store s q pageSize count)[0]? = some x →
    x = ⟨q, max pageSize 1, none⟩
  /-- Each other page is asked for after a page that has a cursor, with that cursor. -/
  others : ∀ count i x, (pagesIn store s q pageSize count)[i + 1]? = some x →
    ∃ p c, answers[i]? = some (.ok p) ∧ p.cursor = some c ∧ x = ⟨q, max pageSize 1, some c⟩
  /-- A loop sees the same measurements, and then the error if the limit was not reached before. -/
  loop : ∀ (α : Type) (f : α → Measurement → α) (a : α),
    let d := (ofQuery q pageSize).forEach store.noting (fun a m => pure (f a m)) a (s, [])
    d.value.1 = (q.cut answers.records).foldl f a ∧
      (∀ e, d.value.2 = some e ↔ .error e ∈ q.cut answers.items) ∧
      d.state.2 = pagesIn store s q pageSize (answers.records.length + 1)

/-! ## Streams from the beginning

Nothing is in the buffer yet, so that all that is due is in the answers. -/

section Yields

variable {store : Store σ} {s : σ} {q : Query} {pageSize : Nat} {answers : Answers}

theorem due_ofQuery (q : Query) (pageSize : Nat) (answers : Answers) :
    (ofQuery q pageSize).due answers = q.cut answers.items := by
  unfold due cut Query.cut
  cases hlimit : (ofQuery q pageSize).query.limit with
  | none =>
      have hlimit : q.limit = none := hlimit
      rw [hlimit]
      rfl
  | some n =>
      have hlimit : q.limit = some n := hlimit
      rw [hlimit]
      rfl

theorem lt_wanted_ofQuery_iff {count k : Nat} :
    k < (ofQuery q pageSize).wanted count ↔ k < count ∧ ∀ n, q.limit = some n → k < n := by
  unfold wanted
  show k < (match q.limit with | none => count | some n => min count (n - 0)) ↔ _
  cases q.limit with
  | none => simp
  | some n => simp only [Option.some.injEq, forall_eq', Nat.sub_zero, Nat.lt_min]

theorem pagesIn_eq (h : store.Gives q (max pageSize 1) none s answers) (count : Nat) :
    pagesIn store s q pageSize count =
      answers.asked q (max pageSize 1) none ((ofQuery q pageSize).wanted count) :=
  (((awaits_ofQuery h).keepsUp count) []).2.trans (List.nil_append _)

/-- Up to the limit, the measurements stand before the error, and there is at most one. -/
theorem exists_cut_items (q : Query) (answers : Answers) :
    ∃ error : Option StoreError,
      q.cut answers.items = (q.cut answers.records).map .ok ++ error.toList.map .error := by
  unfold Query.cut Answers.items
  cases q.limit with
  | none => exact ⟨answers.error?, rfl⟩
  | some n =>
      simp only [List.take_append, List.length_map, ← List.map_take]
      cases answers.error? with
      | none => exact ⟨none, by simp⟩
      | some e =>
          cases n - answers.records.length with
          | zero => exact ⟨none, rfl⟩
          | succ k => exact ⟨some e, by simp⟩

/-- A loop gets through all measurements up to the limit, and then to the error. -/
theorem looped_cut (f : α → Measurement → α) (a : α) (q : Query) (answers : Answers) :
    (looped f a (q.cut answers.items)).1 = (q.cut answers.records).foldl f a ∧
      ∀ e, (looped f a (q.cut answers.items)).2 = some e ↔ .error e ∈ q.cut answers.items := by
  obtain ⟨error, herror⟩ := exists_cut_items q answers
  rw [herror, looped_ok]
  cases error with
  | none => simp [looped]
  | some e => simp [looped, refusal?, List.filterMap, Except.toOption, eq_comm]

/-- **A stream hands out what the store answers**: for every store, query and page size, if the
answers of the store end. -/
theorem yields_of_gives (h : store.Gives q (max pageSize 1) none s answers) :
    Yields store s q pageSize answers := by
  have hawaits := awaits_ofQuery h
  exact {
    calls := by
      intro count
      rw [((hawaits.keepsUp count) []).1, due_ofQuery]
    needed := by
      intro count i
      rw [pagesIn_eq h, Answers.lt_length_asked_iff, lt_wanted_ofQuery_iff]
    first := by
      intro count x hx
      rw [pagesIn_eq h, Answers.getElem?_asked] at hx
      split at hx
      · exact (Option.some.inj hx).symm
      · cases hx
    others := by
      -- A later page is asked for with the cursor that the page before it has named.
      intro count i x hx
      rw [pagesIn_eq h, Answers.getElem?_asked] at hx
      split at hx
      · next hi =>
          obtain ⟨p, c, hp, hc⟩ := h.exists_cursor hi.1
          rw [List.getElem?_cons_succ, List.getElem?_map, hp] at hx
          refine ⟨p, c, hp, hc, ?_⟩
          rw [← hc]
          exact (Option.some.inj hx).symm
      · cases hx
    loop := by
      -- A loop goes through as much as one call more than there are measurements hands out.
      intro α f a
      have hcount : (ofQuery q pageSize).buffer.length + answers.records.length <
          answers.records.length + 1 := by simp [ofQuery]
      have hloop := hawaits.forEachWithin_eq (f := f) hawaits.length_le_pageBound hcount a []
      rw [due_ofQuery] at hloop
      obtain ⟨hvisits, herror⟩ := looped_cut f a q answers
      have hvalue := hloop.1
      refine ⟨(congrArg Prod.fst hvalue).trans hvisits, fun e => ?_, ?_⟩
      · rw [← herror e]
        exact Eq.congr_left (congrArg Prod.snd hvalue)
      · rw [pagesIn_eq h]
        exact hloop.2 }

/-- An empty page, a page with more measurements than were asked for, and an error. -/
def unevenScript : Script where
  answers := [
    .ok ⟨[], some "b"⟩,
    .ok ⟨[⟨⟨"ping"⟩, .ping, .epoch, true, .empty, .empty, ⟨"phone"⟩, none⟩,
      ⟨⟨"rrc"⟩, .rrc, .epoch, true, .empty, .empty, ⟨"phone"⟩, none⟩], some "c"⟩,
    .error (.backend "gone")]
  asked := []

theorem unevenScript_yields :
    Script.store.Gives {} (max 0 1) none unevenScript unevenScript.answers ∧
      Yields Script.store unevenScript {} 0 unevenScript.answers := by
  have h : Script.store.Gives {} (max 0 1) none unevenScript unevenScript.answers := by
    exact .more rfl (by decide) rfl (.more rfl (by decide) rfl (.error rfl (by decide)))
  exact ⟨h, yields_of_gives h⟩

end Yields

end RecordStream

end NetAudit
