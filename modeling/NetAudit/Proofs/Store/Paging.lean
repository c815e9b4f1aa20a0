import NetAudit.Proofs.Action
import NetAudit.Proofs.Store.Listing

/-!
# Streams go through the list of their query

A stream asks for page after page, and between two pages each visit may change the store. On a store
that serves the pages of an archive, and with visits that do not move what comes after them, it
still visits the list of its query in order, each measurement once and as it stands there: visiting
all of a stream is a fold over that list (`RecordStream.forEach_eq`). Where the store does not
answer for some cursor, it is a fold over the part before.

The proof follows the stream page by page; `RecordStream.StandsAt` is what holds between two pages.
-/

namespace NetAudit

variable {σ α : Type}

/-! ## Places and cursors

A cursor is a place in the list of a query, written down as a number. The page at a place and the
cursor of the page after it are known from the list alone. -/

/-- The cursor that names a place in a list. -/
def cursorAt (place : Nat) : Option String := if place = 0 then none else some (toString place)

/-- The cursors with which the pages of a list are asked for, from a place on. -/
def cursorsFrom (length pageSize place : Nat) : List (Option String) :=
  let next := place + max pageSize 1
  cursorAt place :: if next < length then cursorsFrom length pageSize next else []
termination_by length - place

/-- The cursors with which a query of an archive is asked for. A query for nothing is not asked. -/
def Query.cursors (q : Query) (a : Archive) (pageSize : Nat) : List (Option String) :=
  if q.limit = some 0 then [] else cursorsFrom (a.listed q).length pageSize 0

theorem Archive.place?_cursorAt {place length : Nat} (h : place ≤ length) :
    place? (cursorAt place) length = .ok place := by
  unfold cursorAt
  by_cases hzero : place = 0
  · rw [if_pos hzero, hzero]
    rfl
  · have hlt : place < max Number.countBound (length + 1) := by omega
    have htext : (toString place).toList = Nat.toDigits 10 place := by
      simp [toString, Nat.repr]
    have hread := Number.natural?_repr hlt
    rw [← htext] at hread
    rw [if_neg hzero]
    simp only [place?, hread]

/-- The store serves the pages of the archive that `view` sees in its state, but fails for some
cursors. Being asked leaves no trace. -/
structure Store.ServesPages (store : Store σ) (view : σ → Archive)
    (fault : Option String → Option StoreError) : Prop where
  query : ∀ q n cursor s, store.query q n cursor s =
    (match fault cursor with
      | some e => .error e
      | none => (view s).page q n cursor, s)
  pageBound : ∀ s, (view s).measurements.size < store.pageBound s

/-- A visit to a measurement of a list moves none of those after it. -/
def KeepsRest (view : σ → Archive) (q : Query) (visit : α → Measurement → Action σ α) : Prop :=
  ∀ a m s done rest, (view s).listed q = done ++ m :: rest →
    ∃ done', done'.length = done.length + 1 ∧
      (view (visit a m s).state).listed q = done' ++ rest

/-- Visits to several measurements of a list in a row move none of those after them. -/
theorem KeepsRest.foldlM {view : σ → Archive} {q : Query} {visit : α → Measurement → Action σ α}
    (h : KeepsRest view q visit) (ms : List Measurement) (a : α) (s : σ)
    {done rest : List Measurement} (hlist : (view s).listed q = done ++ (ms ++ rest)) :
    ∃ done', done'.length = done.length + ms.length ∧
      (view (ms.foldlM visit a s).state).listed q = done' ++ rest := by
  induction ms generalizing a s done with
  | nil => exact ⟨done, rfl, hlist⟩
  | cons m ms ih =>
      obtain ⟨done₁, hlen₁, hlist₁⟩ := h a m s done (ms ++ rest) hlist
      obtain ⟨done₂, hlen₂, hlist₂⟩ := ih (visit a m s).value (visit a m s).state hlist₁
      rw [List.foldlM_cons]
      refine ⟨done₂, ?_, hlist₂⟩
      rw [hlen₂, hlen₁, List.length_cons]
      omega

namespace RecordStream

/-! ## Between two pages

`RecordStream.StandsAt` is the invariant. A part of the list is done, and the buffer is a front of
the rest; the cursor is the place behind the buffer. -/

/-- Where a stream stands in the list of its query: what it has handed out, what is left, and that
its buffer and its cursor go on from there. -/
structure StandsAt (r : RecordStream) (a : Archive) (done rest : List Measurement) : Prop where
  listed : a.listed r.query = done ++ rest
  yielded : r.yielded = done.length
  buffer : r.buffer <+: rest
  /-- After the last page, what is left is in the buffer. -/
  last : r.exhausted = true → r.buffer = rest
  cursor : r.exhausted = false → r.cursor = cursorAt (r.yielded + r.buffer.length)
  /-- Before it, there is something else, or no page was asked for. -/
  more : r.exhausted = false → r.buffer.length < rest.length ∨ done = [] ∧ r.buffer = []

/-- The cursors with which the stream will still ask for pages. -/
def cursorsLeft (r : RecordStream) (length : Nat) : List (Option String) :=
  if r.exhausted ∨ r.query.limit = some 0 then []
  else cursorsFrom length r.pageSize (r.yielded + r.buffer.length)

variable {store : Store σ} {view : σ → Archive} {fault : Option String → Option StoreError}

/-- At the beginning a stream stands before the whole list. -/
theorem standsAt_ofQuery (q : Query) (pageSize : Nat) (a : Archive) :
    (ofQuery q pageSize).StandsAt a [] (a.listed q) where
  listed := rfl
  yielded := rfl
  buffer := List.nil_prefix
  last h := by cases h
  cursor _ := rfl
  more _ := .inr ⟨rfl, rfl⟩

/-- The whole buffer can be handed out, since the list of the query keeps to its limit. -/
theorem StandsAt.ready_eq {r : RecordStream} {a : Archive} {done rest : List Measurement}
    (h : r.StandsAt a done rest) : r.ready = r.buffer := by
  unfold ready
  cases hlimit : r.query.limit with
  | none => rfl
  | some n =>
      apply List.take_of_length_le
      have hle := Archive.length_listed_le_limit (a := a) hlimit
      have hbuffer := h.buffer.length_le
      rw [h.listed, List.length_append] at hle
      rw [h.yielded]
      omega

/-- When the buffer is handed out, a stream that is not over has something left to ask for or has
not asked yet; one that is over has nothing left. -/
theorem StandsAt.isOver_advance {r : RecordStream} {a : Archive} {done rest : List Measurement}
    (h : r.StandsAt a done rest) (hover : (r.advance r.buffer.length).isOver = true) :
    rest = r.buffer ∧ r.cursorsLeft (a.listed r.query).length = [] := by
  unfold cursorsLeft
  cases hex : r.exhausted with
  | true => exact ⟨(h.last hex).symm, by simp⟩
  | false =>
      have hreached : r.query.limit.any (· ≤ r.yielded + r.buffer.length) = true := by
        simpa [isOver, limitReached, advance, hex] using hover
      obtain ⟨n, hlimit, hn⟩ : ∃ n, r.query.limit = some n ∧ n ≤ r.yielded + r.buffer.length := by
        simpa [Option.any_eq_true] using hreached
      have hle := Archive.length_listed_le_limit (a := a) hlimit
      rw [h.listed, List.length_append] at hle
      have hy := h.yielded
      -- More than the buffer would exceed the limit, unless the limit is zero.
      rcases h.more hex with hlt | ⟨hdone, hbuffer⟩
      · omega
      · rw [hdone] at hle hy
        rw [hbuffer] at hn ⊢
        simp only [List.length_nil] at hle hy hn
        have hrest : rest = [] := List.eq_nil_of_length_eq_zero (by omega)
        have hzero : n = 0 := by omega
        exact ⟨hrest, by simp [hlimit, hzero]⟩

/-- The page that is fetched when the buffer is handed out goes on where the stream stands. -/
theorem StandsAt.withPage {r : RecordStream} {a : Archive} {done rest : List Measurement}
    (h : r.StandsAt a done rest) :
    (r.withPage (Archive.pageFrom (a.listed r.query) r.yielded r.pageSize)).StandsAt a done rest
    := by
  have hlen : (a.listed r.query).length = r.yielded + rest.length := by
    rw [h.listed, List.length_append, h.yielded]
  have hpage : ((a.listed r.query).drop r.yielded).take (max r.pageSize 1) =
      rest.take (max r.pageSize 1) := by
    rw [h.listed, h.yielded, List.drop_left]
  -- A page names a next cursor just if the list goes on after it, and then it is full.
  refine ⟨h.listed, h.yielded, ?_, ?_, ?_, ?_⟩
  · show _ <+: rest
    rw [Archive.pageFrom, RecordStream.withPage, hpage]
    exact List.take_prefix _ _
  · intro hlast
    show ((a.listed r.query).drop r.yielded).take (max r.pageSize 1) = rest
    rw [hpage]
    apply List.take_of_length_le
    have hnext : ¬ r.yielded + max r.pageSize 1 < (a.listed r.query).length := by
      intro hlt
      simp [RecordStream.withPage, Archive.pageFrom, hlt] at hlast
    omega
  all_goals
    intro hmore
    have hnext : r.yielded + max r.pageSize 1 < (a.listed r.query).length := by
      apply Decidable.byContradiction
      intro hlt
      simp [RecordStream.withPage, Archive.pageFrom, hlt] at hmore
    have hfull : (rest.take (max r.pageSize 1)).length = max r.pageSize 1 := by
      rw [List.length_take]
      omega
  · show (if _ < _ then some (toString _) else none) = _
    rw [if_pos hnext]
    show _ = cursorAt (r.yielded + (((a.listed r.query).drop r.yielded).take _).length)
    rw [hpage, hfull, cursorAt, if_neg (by omega)]
  · left
    show (((a.listed r.query).drop r.yielded).take _).length < _
    rw [hpage, hfull]
    omega

/-- The cursors that are left after a page was fetched are those before, without the first. -/
theorem cursorsLeft_withPage {r : RecordStream} {a : Archive} (hbuffer : r.buffer = [])
    (hex : r.exhausted = false) (hlimit : r.query.limit ≠ some 0) :
    r.cursorsLeft (a.listed r.query).length = cursorAt r.yielded ::
      (r.withPage (Archive.pageFrom (a.listed r.query) r.yielded r.pageSize)).cursorsLeft
        (a.listed r.query).length := by
  have hleft : r.cursorsLeft (a.listed r.query).length =
      cursorsFrom (a.listed r.query).length r.pageSize r.yielded := by
    simp [cursorsLeft, hex, hlimit, hbuffer]
  rw [hleft, cursorsFrom]
  congr 1
  by_cases hnext : r.yielded + max r.pageSize 1 < (a.listed r.query).length
  · -- A page with a cursor is full, so the next place is a page further.
    rw [if_pos hnext]
    have hopen : (r.withPage (Archive.pageFrom (a.listed r.query) r.yielded
        r.pageSize)).exhausted = false := by
      simp [RecordStream.withPage, Archive.pageFrom, hnext]
    have hfull : (((a.listed r.query).drop r.yielded).take (max r.pageSize 1)).length =
        max r.pageSize 1 := by
      rw [List.length_take, List.length_drop]
      omega
    unfold cursorsLeft
    rw [if_neg (by simp [hopen]; exact hlimit)]
    show _ = cursorsFrom _ r.pageSize (r.yielded + (List.take _ _).length)
    rw [hfull]
  · rw [if_neg hnext]
    simp [cursorsLeft, RecordStream.withPage, Archive.pageFrom, hnext]

theorem cursorsLeft_advance (r : RecordStream) (length : Nat) :
    (r.advance r.buffer.length).cursorsLeft length = r.cursorsLeft length := by
  unfold cursorsLeft advance
  simp

/-! ## All pages

A visit moves the stream by one item, and a page fills the buffer again. The pages that are asked
for are those of the cursors that are left. -/

/-- The stream with its buffer handed out still stands in the list, further on. -/
theorem StandsAt.advance {r : RecordStream} {a b : Archive}
    {done done' rest rest' : List Measurement}
    (h : r.StandsAt a done rest) (hrest : rest = r.buffer ++ rest')
    (hlen : done'.length = done.length + r.buffer.length)
    (hlist : b.listed r.query = done' ++ rest')
    (hover : (r.advance r.buffer.length).isOver = false) :
    (r.advance r.buffer.length).StandsAt b done' rest' := by
  have hex : r.exhausted = false := (Bool.or_eq_false_iff.1 hover).2
  have hempty : (r.advance r.buffer.length).buffer = [] := List.drop_length
  refine ⟨hlist, ?_, ?_, ?_, ?_, ?_⟩
  · show r.yielded + r.buffer.length = _
    rw [hlen, h.yielded]
  · rw [hempty]
    exact List.nil_prefix
  · intro hlast
    exact absurd hlast (by simp [RecordStream.advance, hex])
  · intro _
    rw [hempty]
    exact h.cursor hex
  · intro _
    rw [hempty]
    cases rest' with
    | cons => exact .inl (Nat.succ_pos _)
    | nil =>
        -- A stream that is not over has more to come, unless its list is empty.
        have hmore := h.more hex
        rw [hrest, List.append_nil] at hmore
        rcases hmore with hlt | ⟨hdone, hbuffer⟩
        · exact absurd hlt (Nat.lt_irrefl _)
        · rw [hdone, hbuffer] at hlen
          exact .inr ⟨List.eq_nil_of_length_eq_zero hlen, rfl⟩

/-- With one measurement of its buffer handed out it stands behind that. -/
theorem StandsAt.advance_one {r : RecordStream} {a b : Archive} {m : Measurement}
    {done done' buffer rest : List Measurement} (h : r.StandsAt a done (m :: rest))
    (hbuffer : r.buffer = m :: buffer) (hlen : done'.length = done.length + 1)
    (hlist : b.listed r.query = done' ++ rest) : (r.advance 1).StandsAt b done' rest := by
  -- One more record is handed out, and nothing else of the stream has changed. Each field is that
  -- of `h` with the first record taken off.
  have hdrop : (r.advance 1).buffer = buffer := by
    show r.buffer.drop 1 = _
    rw [hbuffer]
    rfl
  have hyielded : (r.advance 1).yielded = r.yielded + 1 := rfl
  have hprefix := h.buffer
  have hmore := h.more
  rw [hbuffer] at hprefix hmore
  refine ⟨hlist, ?_, ?_, ?_, ?_, ?_⟩
  · rw [hlen, hyielded, h.yielded]
  · rw [hdrop]
    exact (List.cons_prefix_cons.1 hprefix).2
  · intro hlast
    have heq := h.last hlast
    rw [hbuffer] at heq
    rw [hdrop]
    exact (List.cons.inj heq).2
  · intro hex
    show r.cursor = _
    rw [hyielded, hdrop, h.cursor hex, hbuffer, List.length_cons]
    congr 1
    omega
  · intro hex
    rcases hmore hex with hlt | ⟨-, hnil⟩
    · rw [hdrop]
      exact .inl (Nat.lt_of_succ_lt_succ hlt)
    · cases hnil

/-- Asking for a page gives that at the place where the stream stands, or fails for its cursor. -/
theorem StandsAt.fetch_eq (hstore : store.ServesPages view fault) {r : RecordStream} {s : σ}
    {done rest : List Measurement} (h : r.StandsAt (view s) done rest) (hbuffer : r.buffer = [])
    (hex : r.exhausted = false) :
    r.fetch store s =
      ⟨match fault (cursorAt r.yielded) with
        | some e => .error e
        | none => .ok (r.withPage
            (Archive.pageFrom ((view s).listed r.query) r.yielded r.pageSize)), s, []⟩ := by
  have hcursor : r.cursor = cursorAt r.yielded := by
    rw [h.cursor hex, hbuffer]
    rfl
  have hplace : r.yielded ≤ ((view s).listed r.query).length := by
    rw [h.listed, List.length_append, h.yielded]
    omega
  have hpage : (view s).page r.query r.pageSize (cursorAt r.yielded) =
      .ok (Archive.pageFrom ((view s).listed r.query) r.yielded r.pageSize) := by
    simp only [Archive.page, Archive.place?_cursorAt hplace]
    rfl
  unfold fetch
  simp only [Action.bind_apply, Action.ofOp_apply, Action.pure_apply, hstore.query, hcursor, hpage,
    List.append_nil]
  cases fault (cursorAt r.yielded) with
  | some e => rfl
  | none => rfl

/-- What is said of the visits to what is left of a stream: they go through it in order, all of it
unless a page fails. -/
def VisitsRest (view : σ → Archive) (fault : Option String → Option StoreError)
    (visit : α → Measurement → Action σ α) (r : RecordStream) (rest : List Measurement)
    (x : α → Action σ (α × Option StoreError)) (a : α) (s : σ) : Prop :=
  let failure := (r.cursorsLeft ((view s).listed r.query).length).findSome? fault
  ∃ k, (failure = none → rest.length ≤ k) ∧
    x a s = ((rest.take k).foldlM visit a >>= fun a => pure (a, failure)) s

/-- The step from one page to the next: asking for a page and visiting what is left then. -/
private theorem visitsRest_fetch {visit : α → Measurement → Action σ α}
    (hstore : store.ServesPages view fault) {pages : Nat} {r : RecordStream} {a : α} {s : σ}
    {done rest : List Measurement} (h : r.StandsAt (view s) done rest) (hbuffer : r.buffer = [])
    (hover : r.isOver = false)
    (ih : ∀ next : RecordStream, next.query = r.query → next.StandsAt (view s) done rest →
      (next.exhausted = false → 0 < next.buffer.length) →
      VisitsRest view fault visit next rest (next.forEachWithin store visit pages) a s) :
    VisitsRest view fault visit r rest (fun a => do
      match ← r.fetch store with
      | .error e => return (a, some e)
      | .ok r => r.forEachWithin store visit pages a) a s := by
  have hex : r.exhausted = false := (Bool.or_eq_false_iff.1 hover).2
  have hlimit : r.query.limit ≠ some 0 := by
    -- A stream with this limit is over before it asks for anything.
    intro hzero
    have hreached := (Bool.or_eq_false_iff.1 hover).1
    simp [limitReached, hzero] at hreached
  unfold VisitsRest
  rw [cursorsLeft_withPage hbuffer hex hlimit, List.findSome?_cons]
  simp only [Action.bind_apply, h.fetch_eq hstore hbuffer hex]
  cases hfault : fault (cursorAt r.yielded) with
  | some e =>
      refine ⟨0, by simp, ?_⟩
      simp
  | none =>
      have hnext := h.withPage
      generalize hpage : r.withPage
        (Archive.pageFrom ((view s).listed r.query) r.yielded r.pageSize) = next at hnext ⊢
      have hquery : next.query = r.query := by rw [← hpage]; rfl
      have hfull : next.exhausted = false → 0 < next.buffer.length := by
        intro hmore
        rw [← hpage] at hmore ⊢
        have hlt : r.yielded + max r.pageSize 1 < ((view s).listed r.query).length := by
          apply Decidable.byContradiction
          intro hlt
          simp [RecordStream.withPage, Archive.pageFrom, hlt] at hmore
        show 0 < (List.take (max r.pageSize 1) (List.drop r.yielded _)).length
        rw [List.length_take, List.length_drop]
        omega
      obtain ⟨k, hk, heq⟩ := ih next hquery hnext hfull
      rw [hquery] at hk heq
      refine ⟨k, hk, ?_⟩
      simp only [List.nil_append]
      exact heq

/-- A stream that stands in the list of its query visits what is left of it, up to the first page
that fails. -/
theorem forEachWithin_visitsRest {visit : α → Measurement → Action σ α}
    (hstore : store.ServesPages view fault) (pages : Nat) (r : RecordStream) (a : α) (s : σ)
    {done rest : List Measurement} (hvisit : KeepsRest view r.query visit)
    (h : r.StandsAt (view s) done rest)
    (hpages : r.exhausted = false → rest.length - r.buffer.length < pages) :
    VisitsRest view fault visit r rest (r.forEachWithin store visit pages) a s := by
  -- Each page that is asked for takes at least one record from what is left, so `pages` last.
  induction pages generalizing r a s done rest with
  | zero =>
      have hex : r.exhausted = true := by
        cases hex : r.exhausted with
        | true => rfl
        | false => exact absurd (hpages hex) (Nat.not_lt_zero _)
      have hleft : r.cursorsLeft ((view s).listed r.query).length = [] := by simp [cursorsLeft, hex]
      refine ⟨rest.length, fun _ => Nat.le_refl _, ?_⟩
      unfold forEachWithin
      rw [h.ready_eq, h.last hex, List.take_length, hleft]
      rfl
  | succ pages ih =>
      obtain ⟨rest', rfl⟩ := h.buffer
      -- What the visits to the buffer leave.
      obtain ⟨done', hlen, hlist⟩ := hvisit.foldlM r.buffer a s h.listed
      generalize hd : r.buffer.foldlM visit a s = d at hlist
      have hsame : ((view s).listed r.query).length =
          ((view d.state).listed r.query).length := by
        rw [hlist, h.listed]
        simp only [List.length_append, hlen]
        omega
      by_cases hover : (r.advance r.buffer.length).isOver = true
      -- Neither records nor cursors are left.
      · obtain ⟨hbuffer, hleft⟩ := h.isOver_advance hover
        refine ⟨(r.buffer ++ rest').length, fun _ => Nat.le_refl _, ?_⟩
        unfold forEachWithin
        rw [h.ready_eq]
        simp only [hover, if_true]
        rw [List.take_length, hleft, hbuffer]
        rfl
      · have hover := Bool.eq_false_iff.2 hover
        have hstands := h.advance rfl hlen hlist hover
        -- The next page is asked for in the state which the visits to this one left.
        have hgo : ∀ next : RecordStream, next.query = r.query →
            next.StandsAt (view d.state) done' rest' →
            (next.exhausted = false → 0 < next.buffer.length) →
            VisitsRest view fault visit next rest' (next.forEachWithin store visit pages)
              d.value d.state := by
          intro next hquery hnext hfull
          apply ih next d.value d.state (hquery ▸ hvisit) hnext
          intro hmore
          have hex : r.exhausted = false := (Bool.or_eq_false_iff.1 hover).2
          have hbound := hpages hex
          have hpositive := hfull hmore
          have hwithin := hnext.buffer.length_le
          rw [List.length_append] at hbound
          omega
        obtain ⟨k, hk, heq⟩ := visitsRest_fetch hstore hstands List.drop_length hover hgo
        have hsame' : ((view d.state).listed (r.advance r.buffer.length).query).length =
          ((view s).listed r.query).length := hsame.symm
        rw [cursorsLeft_advance, hsame'] at hk heq
        refine ⟨r.buffer.length + k, ?_, ?_⟩
        · intro hnone
          rw [List.length_append]
          exact Nat.add_le_add_left (hk hnone) _
        · unfold forEachWithin
          rw [h.ready_eq, List.take_length_add_append, List.foldlM_append, bind_assoc]
          apply Action.bind_apply_congr
          rw [hd]
          simp only [hover, Bool.false_eq_true, if_false]
          exact heq

/-- **Visiting all of a stream is a fold over the list of its query**, up to the first page that
fails. -/
theorem forEach_eq {visit : α → Measurement → Action σ α} (hstore : store.ServesPages view fault)
    (q : Query) (pageSize : Nat) (hvisit : KeepsRest view q visit) (a : α) (s : σ) :
    let failure := (q.cursors (view s) (max pageSize 1)).findSome? fault
    ∃ k, (failure = none → ((view s).listed q).length ≤ k) ∧
      (ofQuery q pageSize).forEach store visit a s =
        ((((view s).listed q).take k).foldlM visit a >>= fun a => pure (a, failure)) s := by
  have hbound : ((view s).listed q).length < store.pageBound s :=
    Nat.lt_of_le_of_lt ((view s).length_listed_le q) (hstore.pageBound s)
  have hvisits := forEachWithin_visitsRest hstore (store.pageBound s) (ofQuery q pageSize) a s
    hvisit (standsAt_ofQuery q pageSize (view s)) fun _ => hbound
  have hcursors : (ofQuery q pageSize).cursorsLeft ((view s).listed q).length =
      q.cursors (view s) (max pageSize 1) := by
    simp [cursorsLeft, ofQuery, Query.cursors]
  obtain ⟨k, hk, heq⟩ := hvisits
  have hquery : (ofQuery q pageSize).query = q := rfl
  rw [hquery, hcursors] at hk heq
  exact ⟨k, hk, heq⟩

end RecordStream

end NetAudit
