import NetAudit.Proofs.Store.Due

/-!
# The calls of a stream

A call hands out what is at hand. If there is nothing, it asks for pages until there is something,
which may take several pages, as a page may be empty. `RecordStream.Awaits.keepsUp` says what calls
in a row hand out and which pages they ask for.
-/

namespace NetAudit

variable {σ : Type}

namespace RecordStream

variable {store : Store σ} {r : RecordStream} {s s' : σ} {p : Page} {e : StoreError}
  {left rest : Answers} {answer : Except StoreError Page}

/-! ## Calls that need a page

A call asks for at most as many pages as the bound of its store says. As the bound counts all
answers that are still to come, a call never ends for it. -/

theorem nextWithin_succ (hempty : r.isEmpty = true) (pages : Nat)
    (hquery : store.query r.query r.pageSize r.cursor s = (answer, s')) :
    r.nextWithin store (pages + 1) s =
      match answer with
      | .error e => ⟨(some (.error e), r.stopped), s', []⟩
      | .ok p => (r.withPage p).nextWithin store pages s' := by
  obtain ⟨hready, hover⟩ : r.ready = [] ∧ r.isOver = false := by simpa [isEmpty] using hempty
  rw [nextWithin]
  simp only [hready, hover, Bool.false_eq_true, if_false, Action.bind_apply, fetch_apply hquery]
  cases answer <;> rfl

/-- With a bound that counts what is still to come, it does not matter how large the bound is. -/
theorem Awaits.nextWithin_congr (h : r.Awaits store s left) {pages pages' : Nat}
    (hpages : left.length ≤ pages) (hpages' : left.length ≤ pages') :
    r.nextWithin store pages s = r.nextWithin store pages' s := by
  induction left generalizing r s pages pages' with
  | nil =>
      rw [nextWithin_of_not_isEmpty h.isEmpty_of_nil, nextWithin_of_not_isEmpty h.isEmpty_of_nil]
  | cons first left ih =>
      cases hempty : r.isEmpty with
      | false => rw [nextWithin_of_not_isEmpty hempty, nextWithin_of_not_isEmpty hempty]
      | true =>
          obtain ⟨pages, rfl⟩ := Nat.exists_eq_add_of_lt hpages
          obtain ⟨pages', rfl⟩ := Nat.exists_eq_add_of_lt hpages'
          obtain ⟨e, s', hleft, hquery⟩ | ⟨p, rest, s', hleft, hquery, hrest⟩ :=
            h.cases_of_isEmpty hempty
          · rw [nextWithin_succ hempty _ hquery, nextWithin_succ hempty _ hquery]
          · obtain ⟨-, rfl⟩ := List.cons.inj hleft
            rw [nextWithin_succ hempty _ hquery, nextWithin_succ hempty _ hquery]
            exact ih hrest (Nat.le_add_right _ _) (Nat.le_add_right _ _)

theorem next_apply (r : RecordStream) (s : σ) :
    r.next store s = r.nextWithin store (store.pageBound s) s := rfl

/-- A stream that gets an error instead of a page hands it out. -/
theorem Awaits.next_of_error (h : r.Awaits store s [.error e]) (hempty : r.isEmpty = true)
    (hquery : store.query r.query r.pageSize r.cursor s = (.error e, s')) :
    r.next store s = ⟨(some (.error e), r.stopped), s', []⟩ := by
  obtain ⟨pages, hpages⟩ := Nat.exists_eq_add_of_lt h.length_le_pageBound
  rw [next_apply, hpages, nextWithin_succ hempty _ hquery]

/-- A stream that gets a page hands out what it hands out with that page. -/
theorem Awaits.next_of_page (h : r.Awaits store s (.ok p :: rest)) (hempty : r.isEmpty = true)
    (hquery : store.query r.query r.pageSize r.cursor s = (.ok p, s'))
    (hrest : (r.withPage p).Awaits store s' rest) :
    r.next store s = (r.withPage p).next store s' := by
  obtain ⟨pages, hpages⟩ := Nat.exists_eq_add_of_lt h.length_le_pageBound
  rw [next_apply, hpages, nextWithin_succ hempty _ hquery, next_apply]
  exact hrest.nextWithin_congr (Nat.le_add_right _ _) hrest.length_le_pageBound

/-! ## Calls in a row

The induction is on the calls and, within a call that needs pages, on the answers that it gets: with
each page the stream is one that waits for fewer answers, and what is due stays the same. -/

theorem Awaits.noting (h : r.Awaits store s left) (asked : List AskedPage) :
    r.Awaits store.noting (s, asked) left :=
  ⟨fun hmore => (h.more hmore).noting asked, h.closed⟩

/-- The answer to the first call, and those to the others on the stream that it leaves. -/
theorem nexts_succ {first : Option (Except StoreError Measurement)} {next : RecordStream}
    (count : Nat) (h : r.next store s = ⟨(first, next), s', []⟩) :
    (r.nexts store (count + 1) s).value.1 = first :: (next.nexts store count s').value.1 ∧
      (r.nexts store (count + 1) s).state = (next.nexts store count s').state := by
  rw [nexts, Action.bind_apply, h]
  exact ⟨rfl, rfl⟩

theorem nexts_congr {next : RecordStream} (count : Nat) (h : r.next store s = next.next store s') :
    r.nexts store (count + 1) s = next.nexts store (count + 1) s' := by
  rw [nexts, nexts, Action.bind_apply, Action.bind_apply, h]

theorem range_map_succ {α : Type} (f : Nat → α) (count : Nat) :
    (List.range (count + 1)).map f = f 0 :: (List.range count).map (fun i => f (i + 1)) := by
  rw [List.range_succ_eq_map, List.map_cons, List.map_map]
  rfl

/-- In so many calls the stream hands out what is due, and asks for the pages that this takes. -/
def KeepsUp (r : RecordStream) (store : Store σ) (s : σ) (left : Answers) (count : Nat) : Prop :=
  ∀ asked,
    (r.nexts store.noting count (s, asked)).value.1 =
      (List.range count).map (fun i => (r.due left)[i]?) ∧
    (r.nexts store.noting count (s, asked)).state.2 = asked ++ r.toAsk left count

theorem keepsUp_zero : r.KeepsUp store s left 0 := by
  intro asked
  rw [toAsk, wanted_zero, Nat.zero_sub, Answers.asked_zero, List.append_nil]
  exact ⟨rfl, rfl⟩

/-- A stream that is over keeps up without doing anything. -/
theorem Awaits.keepsUp_of_isOver (h : r.Awaits store s left) (hready : r.ready = [])
    (hover : r.isOver = true) (count : Nat) : r.KeepsUp store s left count := by
  obtain ⟨hdue, hask⟩ := h.due_of_isOver hready hover
  intro asked
  rw [nexts_of_isOver hready hover, hdue, hask, List.append_nil]
  refine ⟨?_, rfl⟩
  simp

/-- A call that needs no page. -/
theorem Awaits.keepsUp_of_not_isEmpty {count : Nat} (h : r.Awaits store s left)
    (hempty : r.isEmpty = false) (hnext : (r.advance 1).KeepsUp store s left count) :
    r.KeepsUp store s left (count + 1) := by
  cases hready : r.ready with
  | nil =>
      have hover : r.isOver = true := by simpa [isEmpty, hready] using hempty
      exact h.keepsUp_of_isOver hready hover (count + 1)
  | cons m ms =>
      intro asked
      have hfirst : r.next store.noting (s, asked) =
          ⟨(some (.ok m), r.advance 1), (s, asked), []⟩ := by
        rw [next_of_not_isEmpty hempty, handOut_of_head? (by rw [hready]; rfl)]
      have hone : 1 ≤ r.ready.length := by simp [hready]
      obtain ⟨hvalue, hstate⟩ := nexts_succ count hfirst
      rw [hvalue, hstate, (hnext asked).1, (hnext asked).2, range_map_succ, due_advance hone,
        toAsk_advance hone, hready]
      exact ⟨rfl, rfl⟩

/-- A call that gets an error. -/
theorem Awaits.keepsUp_of_error {count : Nat} (h : r.Awaits store s [.error e])
    (hempty : r.isEmpty = true)
    (hquery : store.query r.query r.pageSize r.cursor s = (.error e, s')) :
    r.KeepsUp store s [.error e] (count + 1) := by
  intro asked
  have hfirst := (h.noting asked).next_of_error hempty (Store.noting_query hquery asked)
  obtain ⟨hvalue, hstate⟩ := nexts_succ count hfirst
  have hover : r.stopped.isOver = true := Bool.or_true _
  have hready : r.stopped.ready = [] := by
    have hready : r.ready.isEmpty = true ∧ _ := Bool.and_eq_true_iff.1 hempty
    exact List.isEmpty_iff.1 hready.1
  rw [hvalue, hstate, nexts_of_isOver hready hover, range_map_succ, due_of_error hempty,
    toAsk_of_error hempty]
  refine ⟨?_, rfl⟩
  simp

/-- A call that gets a page goes on as it would have begun with that page. -/
theorem Awaits.keepsUp_of_page {count : Nat} (h : r.Awaits store s (.ok p :: rest))
    (hempty : r.isEmpty = true)
    (hquery : store.query r.query r.pageSize r.cursor s = (.ok p, s'))
    (hrest : (r.withPage p).Awaits store s' rest)
    (hnext : (r.withPage p).KeepsUp store s' rest (count + 1)) :
    r.KeepsUp store s (.ok p :: rest) (count + 1) := by
  intro asked
  have hfirst := (h.noting asked).next_of_page hempty (Store.noting_query hquery asked)
    (hrest.noting _)
  rw [nexts_congr count hfirst, (hnext _).1, (hnext _).2, due_of_page hempty, toAsk_of_page hempty,
    List.append_assoc]
  exact ⟨rfl, rfl⟩

/-- **The calls of a stream** hand out what is due, by induction on the calls and, within a call
that needs pages, on the answers that it gets. -/
theorem Awaits.keepsUp (h : r.Awaits store s left) (count : Nat) :
    r.KeepsUp store s left count := by
  induction count generalizing r s left with
  | zero => exact keepsUp_zero
  | succ count ih =>
      induction left generalizing r s with
      | nil => exact h.keepsUp_of_not_isEmpty h.isEmpty_of_nil (ih (h.advance 1))
      | cons answer left ihleft =>
          cases hempty : r.isEmpty with
          | false => exact h.keepsUp_of_not_isEmpty hempty (ih (h.advance 1))
          | true =>
              obtain ⟨e, s', hleft, hquery⟩ | ⟨p, rest, s', hleft, hquery, hrest⟩ :=
                h.cases_of_isEmpty hempty
              · rw [hleft] at h ⊢
                exact h.keepsUp_of_error hempty hquery
              · obtain ⟨rfl, rfl⟩ := List.cons.inj hleft
                exact h.keepsUp_of_page hempty hquery hrest (ihleft hrest)

end RecordStream

end NetAudit
