import NetAudit.Proofs.Store.Due

/-!
# Loops over a stream

A loop goes through all that is at hand before it asks for the next page. So it sees what calls in a
row hand out, and asks for the pages that enough of them ask for
(`RecordStream.Awaits.forEachWithin_eq`).
-/

namespace NetAudit

variable {σ : Type}

namespace RecordStream

variable {store : Store σ} {r : RecordStream} {s s' : σ} {left : Answers}
  {answer : Except StoreError Page} {α : Type} {f : α → Measurement → α}

/-! ## What a loop leaves

A loop leaves a fold over the measurements, and the first error, which stands behind them. -/

theorem foldlM_pure (f : α → Measurement → α) (ms : List Measurement) (a : α) :
    ms.foldlM (fun a m => (pure (f a m) : Action σ α)) a = pure (ms.foldl f a) := by
  induction ms generalizing a with
  | nil => rfl
  | cons m ms ih =>
      rw [List.foldlM_cons, pure_bind, ih]
      rfl

/-- What a loop leaves that goes through these measurements, up to the first error. -/
def looped (f : α → Measurement → α) (a : α) (items : List (Except StoreError Measurement)) :
    α × Option StoreError :=
  ((items.filterMap Except.toOption).foldl f a, items.findSome? refusal?)

theorem looped_ok (f : α → Measurement → α) (a : α) (ms : List Measurement)
    (items : List (Except StoreError Measurement)) :
    looped f a (ms.map .ok ++ items) = looped f (ms.foldl f a) items := by
  have hrecords : (ms.map (Except.ok (ε := StoreError))).filterMap Except.toOption = ms := by
    rw [List.filterMap_map]
    exact List.filterMap_some
  have herror : (ms.map (Except.ok (ε := StoreError))).findSome? refusal? = none := by
    simp [refusal?]
  rw [looped, looped, List.filterMap_append, List.foldl_append, List.findSome?_append, hrecords,
    herror, Option.none_or]

theorem looped_due (f : α → Measurement → α) (a : α) (r : RecordStream) (left : Answers) :
    looped f a (r.due left) =
      looped f (r.ready.foldl f a) ((r.advance r.ready.length).due left) := by
  rw [due_advance (Nat.le_refl _), List.take_length, looped_ok]

/-! ## The pages of a loop

After what is at hand the stream is over, or it needs a page. -/

/-- The loop, on a stream that is over when it has handed out what is at hand. -/
theorem forEachWithin_pure_of_isOver (hover : (r.advance r.ready.length).isOver = true)
    (pages : Nat) (a : α) :
    r.forEachWithin store (fun a m => pure (f a m)) pages a = pure (r.ready.foldl f a, none) := by
  rw [forEachWithin, foldlM_pure, pure_bind]
  cases pages with
  | zero => rfl
  | succ pages => simp only [hover, if_true]

/-- The loop, on a stream that then needs a page. -/
theorem forEachWithin_pure_succ (hover : (r.advance r.ready.length).isOver = false)
    (hquery : store.query r.query r.pageSize r.cursor s = (answer, s')) (pages : Nat) (a : α) :
    r.forEachWithin store (fun a m => pure (f a m)) (pages + 1) a s =
      match answer with
      | .error e => ⟨(r.ready.foldl f a, some e), s', []⟩
      | .ok p =>
        ((r.advance r.ready.length).withPage p).forEachWithin store (fun a m => pure (f a m)) pages
          (r.ready.foldl f a) s' := by
  rw [forEachWithin, foldlM_pure, pure_bind]
  have hfetch : (r.advance r.ready.length).fetch store s =
      ⟨answer.map (r.advance r.ready.length).withPage, s', []⟩ := fetch_apply hquery
  simp only [hover, Bool.false_eq_true, if_false, Action.bind_apply, hfetch]
  cases answer <;> rfl

/-- **A loop over a stream** sees what is due, up to the first error, and asks for all the pages
that enough calls ask for. -/
theorem Awaits.forEachWithin_eq (h : r.Awaits store s left) {pages count : Nat}
    (hpages : left.length ≤ pages) (hcount : r.buffer.length + left.records.length < count) (a : α)
    (asked : List AskedPage) :
    let d := r.forEachWithin store.noting (fun a m => pure (f a m)) pages a (s, asked)
    d.value = looped f a (r.due left) ∧ d.state.2 = asked ++ r.toAsk left count := by
  induction left generalizing r s pages count a asked with
  | nil =>
      have hafter := h.advance r.ready.length
      have hready := r.ready_advance_ready
      have hover : (r.advance r.ready.length).isOver = true := by
        simpa [isEmpty, hready] using hafter.isEmpty_of_nil
      have hnothing : r.toAsk [] count = [] := rfl
      rw [forEachWithin_pure_of_isOver hover, looped_due, (hafter.due_of_isOver hready hover).1,
        hnothing, List.append_nil]
      exact ⟨rfl, rfl⟩
  | cons answer left ih =>
      have hafter := h.advance r.ready.length
      have hready := r.ready_advance_ready
      have hshort := r.length_ready_le
      -- The calls that hand out what is at hand, and those after them, of which there are some.
      obtain ⟨others, rfl⟩ : ∃ others, count = others + 1 + r.ready.length :=
        ⟨count - r.ready.length - 1, by omega⟩
      cases hover : (r.advance r.ready.length).isOver with
      | true =>
          obtain ⟨hdue, hask⟩ := hafter.due_of_isOver hready hover
          rw [forEachWithin_pure_of_isOver hover, looped_due, hdue, toAsk_advance (Nat.le_refl _),
            hask, List.append_nil]
          exact ⟨rfl, rfl⟩
      | false =>
          have hempty : (r.advance r.ready.length).isEmpty = true := by
            simp [isEmpty, hready, hover]
          obtain ⟨pages, rfl⟩ := Nat.exists_eq_add_of_lt hpages
          obtain ⟨e, s', hleft, hquery⟩ | ⟨p, rest, s', hleft, hquery, hrest⟩ :=
            hafter.cases_of_isEmpty hempty
          · rw [hleft, forEachWithin_pure_succ hover (Store.noting_query hquery asked), looped_due,
              due_of_error hempty, toAsk_advance (Nat.le_refl _), toAsk_of_error hempty]
            exact ⟨rfl, rfl⟩
          · obtain ⟨rfl, rfl⟩ := List.cons.inj hleft
            rw [forEachWithin_pure_succ hover (Store.noting_query hquery asked), looped_due,
              due_of_page hempty, toAsk_advance (Nat.le_refl _), toAsk_of_page hempty]
            have hcount' : p.records.length + (Answers.records left).length < others + 1 := by
              have hrecords : Answers.records (.ok p :: left) =
                  p.records ++ Answers.records left := rfl
              rw [hrecords, List.length_append] at hcount
              omega
            have hrest := ih hrest (Nat.le_add_right _ pages) hcount' (r.ready.foldl f a)
              (asked ++ [(r.advance r.ready.length).request])
            rw [List.append_assoc] at hrest
            exact hrest

end RecordStream

end NetAudit
