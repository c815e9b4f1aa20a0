import NetAudit.Proofs.Store.Answered

/-!
# What a stream has still to hand out

`RecordStream.Awaits` says which answers a stream still waits for. From these and from what it has
in its buffer it is known what the stream will hand out (`RecordStream.due`) and which pages it will
ask for in its next calls (`RecordStream.toAsk`). The lemmas here say how both change when something
is handed out, when a page comes, and when an error comes instead of one.
-/

namespace NetAudit

variable {σ : Type}

namespace RecordStream

variable {store : Store σ} {r : RecordStream} {s s' : σ} {p : Page} {e : StoreError}
  {left rest : Answers} {answer : Except StoreError Page}

/-! ## What a stream waits for

A stream that has had its last page waits for nothing. Any other waits for what its store gives from
its cursor on. -/

/-- The answers that a stream will get, if it asks for all pages: none if it will not ask again. -/
structure Awaits (r : RecordStream) (store : Store σ) (s : σ) (left : Answers) : Prop where
  more : r.exhausted = false → store.Gives r.query r.pageSize r.cursor s left
  closed : r.exhausted = true → left = []

theorem awaits_ofQuery {q : Query} {pageSize : Nat} {answers : Answers}
    (h : store.Gives q (max pageSize 1) none s answers) :
    (ofQuery q pageSize).Awaits store s answers :=
  ⟨fun _ => h, fun h => by cases h⟩

theorem Awaits.advance (h : r.Awaits store s left) (count : Nat) :
    (r.advance count).Awaits store s left :=
  ⟨h.more, h.closed⟩

theorem Awaits.length_le_pageBound (h : r.Awaits store s left) :
    left.length ≤ store.pageBound s := by
  cases hmore : r.exhausted with
  | true => simp [h.closed hmore]
  | false =>
      cases h.more hmore with
      | error _ hbound => exact hbound
      | last _ hbound => exact hbound
      | more _ hbound => exact hbound

theorem exhausted_of_isEmpty (h : r.isEmpty = true) : r.exhausted = false := by
  have hover : r.isOver = false := by
    simp only [isEmpty, Bool.and_eq_true, Bool.not_eq_true'] at h
    exact h.2
  exact (Bool.or_eq_false_iff.1 hover).2

/-- A stream that needs a page gets an error, and that was all, or it gets a page, and then waits
for the others. -/
theorem Awaits.cases_of_isEmpty (h : r.Awaits store s left) (hempty : r.isEmpty = true) :
    (∃ e s', left = [.error e] ∧
        store.query r.query r.pageSize r.cursor s = (.error e, s')) ∨
      ∃ p rest s', left = .ok p :: rest ∧
        store.query r.query r.pageSize r.cursor s = (.ok p, s') ∧
        (r.withPage p).Awaits store s' rest := by
  cases h.more (exhausted_of_isEmpty hempty) with
  | error hquery => exact .inl ⟨_, _, rfl, hquery⟩
  | last hquery _ hcursor =>
      refine .inr ⟨_, _, _, rfl, hquery, fun hmore => ?_, fun _ => rfl⟩
      simp [withPage, hcursor] at hmore
  | more hquery _ hcursor hrest =>
      refine .inr ⟨_, _, _, rfl, hquery, fun _ => hrest, fun hclosed => ?_⟩
      simp [withPage, hcursor] at hclosed

theorem Awaits.isEmpty_of_nil (h : r.Awaits store s []) : r.isEmpty = false := by
  cases hempty : r.isEmpty with
  | false => rfl
  | true =>
      obtain ⟨_, _, hleft, -⟩ | ⟨_, _, _, hleft, -⟩ := h.cases_of_isEmpty hempty
      · cases hleft
      · cases hleft
theorem fetch_apply (hquery : store.query r.query r.pageSize r.cursor s = (answer, s')) :
    r.fetch store s = ⟨answer.map r.withPage, s', []⟩ := by
  unfold fetch
  simp only [Action.bind_apply, Action.ofOp_apply, hquery]
  rfl

/-! ## What is due

What is due is counted in calls, as a stream asks for a page only in a call that needs one. -/

/-- At most as many of some things as may still be handed out. -/
def cut {α : Type} (r : RecordStream) (l : List α) : List α :=
  match r.query.limit with
  | none => l
  | some n => l.take (n - r.yielded)

/-- What a stream will hand out. -/
def due (r : RecordStream) (left : Answers) : List (Except StoreError Measurement) :=
  r.cut (r.buffer.map .ok ++ left.items)

/-- How many of the next calls find the limit not reached. -/
def wanted (r : RecordStream) (count : Nat) : Nat :=
  match r.query.limit with
  | none => count
  | some n => min count (n - r.yielded)

/-- The pages that a stream will ask for in the next calls. -/
def toAsk (r : RecordStream) (left : Answers) (count : Nat) : List AskedPage :=
  left.asked r.query r.pageSize r.cursor (r.wanted count - r.buffer.length)

/-- The page that a stream asks for next. -/
def request (r : RecordStream) : AskedPage := ⟨r.query, r.pageSize, r.cursor⟩

/-! ### The limit

A stream that has reached its limit has nothing due, whatever stands in its buffer. -/

theorem limitReached_iff : r.limitReached = true ↔ ∃ n, r.query.limit = some n ∧ n ≤ r.yielded := by
  simp [limitReached, Option.any_eq_true]

theorem cut_of_limitReached {α : Type} (h : r.limitReached = true) (l : List α) : r.cut l = [] := by
  obtain ⟨n, hlimit, hn⟩ := limitReached_iff.1 h
  simp [cut, hlimit, Nat.sub_eq_zero_of_le hn]

theorem wanted_of_limitReached (h : r.limitReached = true) (count : Nat) : r.wanted count = 0 := by
  obtain ⟨n, hlimit, hn⟩ := limitReached_iff.1 h
  simp [wanted, hlimit, Nat.sub_eq_zero_of_le hn]

theorem wanted_zero (r : RecordStream) : r.wanted 0 = 0 := by
  unfold wanted
  cases r.query.limit with
  | none => rfl
  | some n => exact Nat.zero_min _

/-- One thing more can be handed out before the limit is reached. -/
theorem cut_singleton {α : Type} (h : r.limitReached = false) (x : α) : r.cut [x] = [x] := by
  unfold cut
  cases hlimit : r.query.limit with
  | none => rfl
  | some n =>
      have hn : r.yielded < n := by simpa [limitReached, hlimit] using h
      exact List.take_of_length_le (Nat.sub_pos_of_lt hn)

theorem wanted_pos (h : r.limitReached = false) (count : Nat) : 0 < r.wanted (count + 1) := by
  unfold wanted
  cases hlimit : r.query.limit with
  | none => exact Nat.succ_pos _
  | some n =>
      have hn : r.yielded < n := by simpa [limitReached, hlimit] using h
      exact Nat.lt_min.2 ⟨Nat.succ_pos _, Nat.sub_pos_of_lt hn⟩

/-- Nothing is at hand if the limit is reached or the buffer is empty. -/
theorem ready_eq_nil_iff : r.ready = [] ↔ r.limitReached = true ∨ r.buffer = [] := by
  cases hreached : r.limitReached with
  | true => exact iff_of_true (cut_of_limitReached hreached r.buffer) (.inl rfl)
  | false =>
      unfold ready
      cases hlimit : r.query.limit with
      | none => simp
      | some n =>
          have hn : r.yielded < n := by simpa [limitReached, hlimit] using hreached
          simp [Nat.sub_eq_zero_iff_le, Nat.not_le.2 hn]

/-! ### What is at hand

What is in the buffer comes before what the answers bring. -/

theorem length_ready_le (r : RecordStream) : r.ready.length ≤ r.buffer.length := by
  unfold ready
  cases r.query.limit with
  | none => exact Nat.le_refl _
  | some n => exact List.length_take_le' _ _

/-- What is at hand is handed out first. -/
theorem due_advance {k : Nat} (hk : k ≤ r.ready.length) (left : Answers) :
    r.due left = (r.ready.take k).map .ok ++ (r.advance k).due left := by
  unfold ready at hk
  unfold due cut ready advance
  cases hlimit : r.query.limit with
  | none =>
      simp only
      rw [← List.append_assoc, ← List.map_append, List.take_append_drop]
  -- Nothing that is ready is behind the limit: the first `k` records are a part of the buffer, and
  -- the limit leaves as many fewer to come.
  | some n =>
      rw [hlimit] at hk
      obtain ⟨hroom, hbuffer⟩ : k ≤ n - r.yielded ∧ k ≤ r.buffer.length := by
        simpa [Nat.le_min] using hk
      have hsplit : r.buffer.map .ok ++ left.items =
          (r.buffer.take k).map .ok ++ ((r.buffer.drop k).map .ok ++ left.items) := by
        rw [← List.append_assoc, ← List.map_append, List.take_append_drop]
      simp only
      rw [hsplit, List.take_append, List.length_map, List.length_take_of_le hbuffer,
        List.take_of_length_le
          (by rw [List.length_map, List.length_take_of_le hbuffer]; exact hroom),
        List.take_take, Nat.min_eq_left hroom, Nat.sub_add_eq]

/-- No page is needed for it. -/
theorem toAsk_advance {k : Nat} (hk : k ≤ r.ready.length) (left : Answers) (count : Nat) :
    r.toAsk left (count + k) = (r.advance k).toAsk left count := by
  have hwanted : r.wanted (count + k) - r.buffer.length =
      (r.advance k).wanted count - (r.advance k).buffer.length := by
    unfold ready at hk
    unfold wanted advance
    cases hlimit : r.query.limit with
    | none =>
        rw [hlimit] at hk
        simp only [List.length_drop] at hk ⊢
        omega
    | some n =>
        rw [hlimit] at hk
        simp only [List.length_take, List.length_drop] at hk ⊢
        omega
  unfold toAsk
  rw [hwanted]
  rfl

theorem ready_advance_ready (r : RecordStream) : (r.advance r.ready.length).ready = [] := by
  unfold ready advance
  cases hlimit : r.query.limit with
  | none => simp
  | some n =>
      simp only [List.length_take, List.take_eq_nil_iff, List.drop_eq_nil_iff]
      omega

/-! ### What is not at hand

A stream with nothing at hand is over, or it needs a page. -/

/-- A stream that is over with nothing at hand hands out nothing and asks for nothing. -/
theorem Awaits.due_of_isOver (h : r.Awaits store s left) (hready : r.ready = [])
    (hover : r.isOver = true) : r.due left = [] ∧ ∀ count, r.toAsk left count = [] := by
  cases hreached : r.limitReached with
  | true =>
      refine ⟨cut_of_limitReached hreached _, fun count => ?_⟩
      rw [toAsk, wanted_of_limitReached hreached, Nat.zero_sub, Answers.asked_zero]
  | false =>
      have hbuffer : r.buffer = [] := by simpa [hreached] using ready_eq_nil_iff.1 hready
      have hmore : r.exhausted = true := by simpa [isOver, hreached] using hover
      rw [h.closed hmore, due, hbuffer]
      refine ⟨?_, fun _ => rfl⟩
      unfold cut
      cases r.query.limit with
      | none => rfl
      | some n => exact List.take_nil

/-- A stream that needs a page has nothing at hand and has not reached the limit. -/
theorem room_of_isEmpty (h : r.isEmpty = true) : r.buffer = [] ∧ r.limitReached = false := by
  obtain ⟨hready, hover⟩ : r.ready = [] ∧ r.isOver = false := by simpa [isEmpty] using h
  have hreached : r.limitReached = false := (Bool.or_eq_false_iff.1 hover).1
  exact ⟨by simpa [hreached] using ready_eq_nil_iff.1 hready, hreached⟩

theorem exists_wanted_of_isEmpty (h : r.isEmpty = true) (count : Nat) :
    ∃ k, r.wanted (count + 1) = k + 1 := by
  obtain ⟨k, hk⟩ := Nat.exists_eq_add_of_lt (wanted_pos (room_of_isEmpty h).2 count)
  exact ⟨k, by omega⟩

/-- With a page that it needs, a stream will hand out the same. -/
theorem due_of_page (h : r.isEmpty = true) (p : Page) (rest : Answers) :
    r.due (.ok p :: rest) = (r.withPage p).due rest := by
  unfold due
  rw [(room_of_isEmpty h).1, Answers.items_cons]
  rfl

theorem toAsk_of_page (h : r.isEmpty = true) (p : Page) (rest : Answers) (count : Nat) :
    r.toAsk (.ok p :: rest) (count + 1) = r.request :: (r.withPage p).toAsk rest (count + 1) := by
  obtain ⟨k, hk⟩ := exists_wanted_of_isEmpty h count
  have hpage : (r.withPage p).wanted (count + 1) = k + 1 := hk
  rw [toAsk, toAsk, (room_of_isEmpty h).1, hk, hpage]
  rfl

/-- The error that a stream gets instead of a page is handed out last. -/
theorem due_of_error (h : r.isEmpty = true) (e : StoreError) : r.due [.error e] = [.error e] := by
  obtain ⟨hbuffer, hreached⟩ := room_of_isEmpty h
  rw [due, hbuffer]
  exact cut_singleton hreached _

theorem toAsk_of_error (h : r.isEmpty = true) (e : StoreError) (count : Nat) :
    r.toAsk [.error e] (count + 1) = [r.request] := by
  obtain ⟨k, hk⟩ := exists_wanted_of_isEmpty h count
  rw [toAsk, (room_of_isEmpty h).1, hk]
  rfl

end RecordStream

end NetAudit
