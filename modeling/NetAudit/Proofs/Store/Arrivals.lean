import NetAudit.Proofs.Run.Results
import NetAudit.Proofs.Store.Shared
import NetAudit.Proofs.Store.Windows

/-!
# Streams over measurements to which others come

A cursor is a place in the list of a query. A measurement that arrives between two pages takes a
place in that list, and those after it move by one. So a stream misses none of the measurements that
were there at the beginning, as none of them moves to a place that was passed already. But what has
been read can move behind the cursor, and then it is read again: `RecordStream.nexts_while_arriving`
and `RecordStream.repeats_after_arrival`.
-/

namespace NetAudit

/-! ## A place for what arrives

A new measurement has one place in the list of a query. What stands before this place stays where it
is, and what stands behind it moves by one. -/

namespace Archive

variable {a : Archive} {q : Query} {z : Measurement}

/-- What was stored still is when a measurement with another name arrives. -/
theorem find?_insertMeasurement_of_new (hnew : a.measurements.contains z.id = false)
    {m : Measurement} (hm : a.measurements.find? m.id = some m) :
    (a.insertMeasurement z).measurements.find? m.id = some m := by
  rw [find?_insertMeasurement, if_neg, hm]
  intro heq
  rw [← heq] at hnew
  simp [OrderedMap.contains, hm] at hnew

theorem listed_insertMeasurement_perm (hq : q.limit = none)
    (hnew : a.measurements.contains z.id = false) :
    ((a.insertMeasurement z).listed q).Perm
      (if q.isMatch z then z :: a.listed q else a.listed q) := by
  rw [listed_eq_matching hq, listed_eq_matching hq]
  have hfree : a.measurements.find? z.id = none := by simpa [OrderedMap.contains] using hnew
  have hrows := OrderedMap.toList_insert_perm a.measurements z.id z
  rw [OrderedMap.filter_ne_eq_self_of_find?_eq_none _ hfree] at hrows
  have hvalues : (a.insertMeasurement z).measurements.values.Perm (z :: a.measurements.values) :=
    hrows.map Prod.snd
  have hperm := ((a.insertMeasurement z).matching_perm q).trans (hvalues.filter q.isMatch)
  rw [List.filter_cons] at hperm
  split
  · next hz =>
    rw [if_pos hz] at hperm
    exact hperm.trans ((a.matching_perm q).symm.cons z)
  · next hz =>
    rw [if_neg hz] at hperm
    exact hperm.trans (a.matching_perm q).symm

/-- A list in order with the items that a query lists is that list. -/
theorem eq_listed_of_perm {ms : List Measurement} (hperm : ms.Perm (a.listed q))
    (hms : ms.Pairwise fun m n => comesFirst m n = true) : ms = a.listed q := by
  refine hperm.eq_of_pairwise ?_ hms (a.listed_pairwise q)
  intro m n hm hn
  exact eq_of_comesFirst (find?_of_mem_listed (hperm.mem_iff.1 hm)).1 (find?_of_mem_listed hn).1

/-- A measurement that arrives takes its place in the list of a query that it matches. -/
theorem exists_place (hq : q.limit = none) (hnew : a.measurements.contains z.id = false)
    (hz : q.isMatch z = true) :
    ∃ before after, a.listed q = before ++ after ∧
      (a.insertMeasurement z).listed q = before ++ z :: after := by
  have hperm := listed_insertMeasurement_perm hq hnew
  rw [if_pos hz] at hperm
  obtain ⟨before, after, hsplit⟩ := List.append_of_mem (hperm.mem_iff.2 List.mem_cons_self)
  refine ⟨before, after, ?_, hsplit⟩
  have hsorted := (a.insertMeasurement z).listed_pairwise q
  rw [hsplit] at hperm hsorted
  have hrest : (before ++ after).Perm (a.listed q) := (List.perm_middle.symm.trans hperm).cons_inv
  refine (eq_listed_of_perm hrest ?_).symm
  exact hsorted.sublist ((List.sublist_cons_self z after).append_left before)

/-- **What arrives pushes nothing back**: a measurement that stands behind a place still does, and
one that stands before it does too, unless what arrives comes before it. -/
theorem listed_arrive (hq : q.limit = none) (hnew : a.measurements.contains z.id = false)
    (place : Nat) :
    (a.listed q).length ≤ ((a.insertMeasurement z).listed q).length ∧
      ((a.insertMeasurement z).listed q).length ≤ (a.listed q).length + 1 ∧
      (∀ m ∈ (a.listed q).drop place, m ∈ ((a.insertMeasurement z).listed q).drop place) ∧
      ∀ m ∈ (a.listed q).take place,
        q.isMatch z = true ∧ z.Precedes m ∨ m ∈ ((a.insertMeasurement z).listed q).take place := by
  cases hz : q.isMatch z with
  | false =>
      have hperm := listed_insertMeasurement_perm hq hnew
      rw [if_neg (by simp [hz])] at hperm
      rw [eq_listed_of_perm hperm (listed_pairwise _ q)]
      exact ⟨Nat.le_refl _, Nat.le_succ _, fun m hm => hm, fun m hm => .inr hm⟩
  | true =>
      obtain ⟨before, after, hbefore, hafter⟩ := exists_place hq hnew hz
      have hsorted := (a.insertMeasurement z).listed_pairwise q
      have hstored := fun m => find?_of_mem_listed (a := a) (q := q) (m := m)
      rw [hafter] at hsorted ⊢
      rw [hbefore] at hstored ⊢
      refine ⟨by simp, by simp [Nat.add_assoc], ?_, ?_⟩
      · intro m hm
        rw [List.drop_append, List.mem_append] at hm ⊢
        refine hm.imp_right fun hm => ?_
        cases hk : place - before.length with
        | zero => rw [hk] at hm; exact List.mem_cons_of_mem _ hm
        | succ k =>
            rw [hk] at hm
            exact List.drop_subset_drop_left after (Nat.le_succ k) hm
      · intro m hm
        rw [List.take_append, List.mem_append] at hm
        rcases hm with hm | hm
        · rw [List.take_append]
          exact .inr (List.mem_append_left _ hm)
        · -- Behind the place of `z` all come after it.
          have hm := List.mem_of_mem_take hm
          have hstored := (hstored m (List.mem_append_right _ hm)).1
          have hne : m.id ≠ z.id := by
            intro heq
            rw [← heq] at hnew
            simp [OrderedMap.contains, hstored] at hnew
          have hfirst := (List.pairwise_cons.1 (List.pairwise_append.1 hsorted).2.1).1 m hm
          refine .inl ⟨rfl, precedes_of_comesFirst (a := a.insertMeasurement z) ?_
            (find?_insertMeasurement_of_new hnew hstored) (fun heq => hne (heq ▸ rfl)) hfirst⟩
          rw [find?_insertMeasurement, if_pos rfl]

end Archive

/-! ## What has been read

`Query.ReadUpTo` is the invariant of the reading. Whatever was there at the beginning has been read
or is still to come, and what was read stands before the cursor, unless something arrived before
it. -/

/-- A measurement that matches and comes before `m` has arrived. -/
def Query.overtaken (q : Query) (m : Measurement) (history : List Incident) : Prop :=
  ∃ z, .changed (.measurement z) ∈ history ∧ q.isMatch z = true ∧ z.Precedes m

theorem Query.overtaken.mono {q : Query} {m : Measurement} {history later : List Incident}
    (h : q.overtaken m history) (hsub : history ⊆ later) : q.overtaken m later := by
  obtain ⟨z, hz, hprecedes⟩ := h
  exact ⟨z, hsub hz, hprecedes⟩

/-- What was read on two pages was overtaken in between. -/
def Query.RereadsOvertaken (q : Query) (history : List Incident) : Prop :=
  ∀ pre ms mid ms' post, history = pre ++ .read ms :: (mid ++ .read ms' :: post) →
    ∀ m ∈ ms, ∀ n ∈ ms', m.id = n.id → q.overtaken m mid

/-- What is known of the pages that were read of a query of an archive that was `a` and now is `b`;
`more` says that the last one was not the last. -/
structure Query.ReadUpTo (q : Query) (a b : Archive) (history : List Incident) (more : Bool) :
    Prop where
  stored : ∀ m ∈ readings history, b.measurements.find? m.id = some m ∧ q.isMatch m = true
  place : (readings history).length ≤ (b.listed q).length
  /-- What was there at the beginning was read, or comes on the pages that are left. -/
  covered : ∀ m ∈ a.listed q, m ∈ readings history ∨
    more = true ∧ m ∈ (b.listed q).drop (readings history).length
  /-- What was read stands on the pages that were passed, unless something came before it. -/
  passed : ∀ pre ms post, history = pre ++ .read ms :: post → ∀ m ∈ ms,
    q.overtaken m post ∨ m ∈ (b.listed q).take (readings history).length
  again : q.RereadsOvertaken history
  twice : (readings history).Pairwise fun m n => m.id = n.id → q.overtaken m history

namespace Query.ReadUpTo

variable {q : Query} {a b : Archive} {history : List Incident} {more : Bool}

theorem nil (q : Query) (a : Archive) : q.ReadUpTo a a [] true where
  stored m hm := absurd hm List.not_mem_nil
  place := Nat.zero_le _
  covered m hm := .inr ⟨rfl, hm⟩
  passed pre ms post h := by simp at h
  again pre ms mid ms' post h := by simp at h
  twice := .nil

/-- The arrival of a measurement. -/
theorem arrive (h : q.ReadUpTo a b history more) (hq : q.limit = none) {z : Measurement}
    (hnew : b.measurements.contains z.id = false) :
    q.ReadUpTo a (b.insertMeasurement z) (history ++ [.changed (.measurement z)]) more := by
  have hreadings : readings (history ++ [.changed (.measurement z)]) = readings history := by
    simp [readings]
  obtain ⟨hlength, -, hdrop, htake⟩ := Archive.listed_arrive hq hnew (readings history).length
  constructor
  case stored =>
    intro m hm
    rw [hreadings] at hm
    exact ⟨Archive.find?_insertMeasurement_of_new hnew (h.stored m hm).1, (h.stored m hm).2⟩
  case place =>
    rw [hreadings]
    exact Nat.le_trans h.place hlength
  case covered =>
    intro m hm
    rw [hreadings]
    exact (h.covered m hm).imp_right fun hleft => ⟨hleft.1, hdrop m hleft.2⟩
  case passed =>
    -- What was passed is overtaken now, or it stays before the cursor.
    intro pre ms post hsplit m hm
    rw [hreadings]
    rcases append_cons_eq_concat_iff.1 hsplit.symm with ⟨-, hread, -⟩ | ⟨post, rfl, hold⟩
    · cases hread
    · rcases h.passed pre ms post hold m hm with hover | hpassed
      · exact .inl (hover.mono (List.subset_append_left _ _))
      · refine (htake m hpassed).imp_left fun hz => ⟨z, ?_, hz⟩
        exact List.mem_append_right _ (List.mem_singleton_self _)
  case again =>
    intro pre ms mid ms' post hsplit
    rw [← List.cons_append, ← List.append_assoc] at hsplit
    rcases append_cons_eq_concat_iff.1 hsplit.symm with ⟨-, hread, -⟩ | ⟨post, -, hold⟩
    · cases hread
    · rw [List.append_assoc, List.cons_append] at hold
      exact h.again pre ms mid ms' post hold
  case twice =>
    rw [hreadings]
    exact h.twice.imp fun hover hid => (hover hid).mono (List.subset_append_left _ _)

/-- A page. -/
theorem read (h : q.ReadUpTo a b history true) (pageSize : Nat) :
    let page := Archive.pageFrom (b.listed q) (readings history).length pageSize
    q.ReadUpTo a b (history ++ [.read page.records]) (!page.cursor.isNone) := by
  intro page
  have hreadings : readings (history ++ [.read page.records]) =
      readings history ++ page.records := by
    simp [readings]
  have hrecords : page.records =
      ((b.listed q).drop (readings history).length).take (max pageSize 1) := rfl
  have hplace := h.place
  have hlen : page.records.length =
      min (max pageSize 1) ((b.listed q).length - (readings history).length) := by
    rw [hrecords, List.length_take, List.length_drop]
  have hpage : page.records =
      ((b.listed q).drop (readings history).length).take page.records.length :=
    List.prefix_iff_eq_take.1 (List.take_prefix _ _)
  have hnodup := b.nodup_ids_listed q
  -- No name stands both before the page and on it.
  have hagain : ∀ pre ms mid, history = pre ++ .read ms :: mid → ∀ m ∈ ms, ∀ n ∈ page.records,
      m.id = n.id → q.overtaken m mid := by
    intro pre ms mid hold m hm n hn hid
    refine (h.passed pre ms mid hold m hm).resolve_right fun hpassed => ?_
    rw [← List.take_append_drop (readings history).length (b.listed q), List.map_append,
      List.nodup_append] at hnodup
    exact hnodup.2.2 m.id (List.mem_map_of_mem hpassed) n.id
      (List.mem_map_of_mem (List.mem_of_mem_take hn)) hid
  constructor
  case stored =>
    intro m hm
    rw [hreadings] at hm
    rcases List.mem_append.1 hm with hm | hm
    · exact h.stored m hm
    · exact Archive.find?_of_mem_listed (List.mem_of_mem_drop (List.mem_of_mem_take hm))
  case place =>
    rw [hreadings, List.length_append]
    omega
  case covered =>
    intro m hm
    rw [hreadings]
    rcases h.covered m hm with hread | ⟨-, hleft⟩
    · exact .inl (List.mem_append_left _ hread)
    · rw [← List.take_append_drop page.records.length (List.drop _ _), ← hpage, List.drop_drop,
        List.mem_append] at hleft
      rcases hleft with hread | hleft
      · exact .inl (List.mem_append_right _ hread)
      -- If something is left behind the page, it is full and names a cursor.
      · have hpos := List.length_pos_of_mem hleft
        rw [List.length_drop] at hpos
        have hnext : (readings history).length + max pageSize 1 < (b.listed q).length := by omega
        refine .inr ⟨by simp [page, Archive.pageFrom, hnext], ?_⟩
        rwa [List.length_append]
  case passed =>
    intro pre ms post hsplit m hm
    rw [hreadings]
    rcases append_cons_eq_concat_iff.1 hsplit.symm with ⟨-, hread, -⟩ | ⟨post, rfl, hold⟩
    · cases hread
      rw [List.length_append, List.take_add, ← hpage]
      exact .inr (List.mem_append_right _ hm)
    · rcases h.passed pre ms post hold m hm with hover | hpassed
      · exact .inl (hover.mono (List.subset_append_left _ _))
      · refine .inr (List.take_subset_take_left _ ?_ hpassed)
        simp
  case again =>
    intro pre ms mid ms' post hsplit m hm n hn hid
    rw [← List.cons_append, ← List.append_assoc] at hsplit
    rcases append_cons_eq_concat_iff.1 hsplit.symm with ⟨-, hread, hold⟩ | ⟨post, -, hold⟩
    · cases hread
      exact hagain pre ms mid hold.symm m hm n hn hid
    · rw [List.append_assoc, List.cons_append] at hold
      exact h.again pre ms mid ms' post hold m hm n hn hid
  case twice =>
    rw [hreadings, List.pairwise_append]
    refine ⟨h.twice.imp fun hover hid => (hover hid).mono (List.subset_append_left _ _), ?_, ?_⟩
    · have hsublist : page.records.Sublist (b.listed q) :=
        (List.take_sublist _ _).trans (List.drop_sublist _ _)
      have hnames := hnodup.sublist (hsublist.map _)
      rw [List.nodup_iff_pairwise_ne, List.pairwise_map] at hnames
      exact hnames.imp fun hne hid => absurd hid hne
    · intro m hm n hn hid
      obtain ⟨pre, ms, post, hold, hm⟩ := exists_of_mem_readings hm
      refine (hagain pre ms post hold m hm n hn hid).mono fun e he => ?_
      rw [hold]
      simp [he]

end Query.ReadUpTo

/-! ## Streams

A stream hands out later what it has read before. Apart from that its buffer plays no part, so that
the invariant of the reading carries over to what is handed out. -/

/-- The measurements have names of their own, and none of a measurement that is stored. -/
def Archive.Fresh (a : Archive) (ms : List Measurement) : Prop :=
  (ms.map (·.id)).Nodup ∧ ∀ m ∈ ms, a.measurements.contains m.id = false

theorem Archive.Fresh.tail {a : Archive} {m : Measurement} {ms : List Measurement}
    (h : a.Fresh (m :: ms)) : (a.insertMeasurement m).Fresh ms := by
  obtain ⟨hm, hms⟩ := List.nodup_cons.1 h.1
  refine ⟨hms, fun n hn => ?_⟩
  have hne : n.id ≠ m.id := fun heq => hm (List.mem_map.2 ⟨n, hn, heq⟩)
  show (a.measurements.insert m.id m).contains n.id = false
  rw [OrderedMap.contains_insert, h.2 n (List.mem_cons_of_mem _ hn)]
  simp [hne]

namespace Query.ReadUpTo

variable {q : Query} {a b : Archive} {history : List Incident} {more : Bool}

theorem arriveAll (h : q.ReadUpTo a b history more) (hq : q.limit = none)
    {ms later : List Measurement} (hfresh : b.Fresh (ms ++ later)) :
    let cs := ms.map Change.measurement
    q.ReadUpTo a (b.changeAll cs) (history ++ cs.map .changed) more ∧
      (b.changeAll cs).Fresh later ∧
      ((b.changeAll cs).listed q).length ≤ (b.listed q).length + ms.length := by
  induction ms generalizing b history with
  | nil =>
      refine ⟨?_, hfresh, Nat.le_refl _⟩
      rwa [List.map_nil, List.map_nil, List.append_nil]
  | cons m ms ih =>
      have hnew := hfresh.2 m List.mem_cons_self
      have hlength := (Archive.listed_arrive hq hnew 0).2.1
      obtain ⟨hread, hlater, hle⟩ := ih (h.arrive hq hnew) hfresh.tail
      rw [List.append_assoc] at hread
      refine ⟨hread, hlater, Nat.le_trans hle ?_⟩
      rw [List.length_cons]
      omega

end Query.ReadUpTo

/-- A script in which measurements arrive, and nothing else happens. -/
def arriving (mss : List (List Measurement)) : List (List Change) :=
  mss.map fun ms => ms.map .measurement

namespace Shared

/-- A stream of a query has handed out `out`, and measurements may still arrive, so that the list of
the query has `bound` of them at most. -/
structure Streams (q : Query) (a : Archive) (bound : Nat) (s : Shared) (r : RecordStream)
    (out : List Measurement) : Prop where
  query : r.query = q
  read : q.ReadUpTo a s.archive s.history (!r.exhausted)
  out : out ++ r.buffer = readings s.history
  cursor : r.exhausted = false → r.cursor = cursorAt (readings s.history).length
  fresh : ∃ mss, s.upcoming = arriving mss ∧ s.archive.Fresh mss.flatten ∧
    (s.archive.listed q).length + mss.flatten.length ≤ bound

variable {q : Query} {a : Archive} {bound : Nat} {s : Shared} {r : RecordStream}
  {out : List Measurement}

theorem Streams.await (h : Streams q a bound s r out) (hq : q.limit = none) :
    Streams q a bound s.await r out := by
  obtain ⟨mss, hmss, hfresh, hbound⟩ := h.fresh
  cases mss with
  | nil =>
      rw [await_nil hmss]
      exact h
  | cons ms mss =>
      rw [await_cons hmss]
      rw [List.flatten_cons] at hfresh hbound
      obtain ⟨hread, hlater, hle⟩ := h.read.arriveAll hq hfresh
      -- What arrives while the client waits is no answer: it has been told the same as before.
      have hreadings : readings (s.history ++ (ms.map Change.measurement).map .changed) =
          readings s.history := by
        simp [readings]
      refine ⟨h.query, hread, h.out.trans hreadings.symm, ?_, mss, rfl, hlater, ?_⟩
      · exact fun hmore => (h.cursor hmore).trans (by rw [hreadings])
      · rw [List.length_append] at hbound
        show ((s.archive.changeAll (ms.map .measurement)).listed q).length + _ ≤ bound
        omega

/-- Be it after a page or without, a stream hands out what it has at hand. -/
theorem Streams.next_eq (h : Streams q a bound s r out) (hq : q.limit = none) :
    ∃ r' s', r.next store s = ⟨r'.handOut, s', []⟩ ∧ r'.isEmpty = false ∧
      Streams q a bound s' r' out := by
  cases hempty : r.isEmpty with
  | false => exact ⟨r, s, RecordStream.next_of_not_isEmpty hempty s, hempty, h⟩
  | true =>
      -- Nothing is at hand, so others have their turn and then a page is read.
      obtain rfl := h.query
      have hawait := h.await hq
      obtain ⟨hready, hover⟩ : r.ready = [] ∧ r.isOver = false := by
        simpa [RecordStream.isEmpty] using hempty
      have hmore : r.exhausted = false := (Bool.or_eq_false_iff.1 hover).2
      have hbuffer : r.buffer = [] := by
        unfold RecordStream.ready at hready
        rwa [hq] at hready
      have hread := hawait.read
      rw [hmore] at hread
      have hout := hawait.out
      rw [hbuffer, List.append_nil] at hout
      have hreadings : ∀ ms,
          readings (s.afterRead ms).history = readings s.await.history ++ ms := by
        simp [afterRead, readings]
      refine ⟨_, _, next_of_isEmpty hempty (hawait.cursor hmore) hread.place,
        r.isEmpty_withPage _ _ _, rfl, ?_, ?_, ?_, hawait.fresh⟩
      · exact hread.read r.pageSize
      · rw [hreadings, ← hout]
        rfl
      · intro hnext
        rw [hreadings, List.length_append]
        exact (Archive.pageFrom_of_cursor hnext).2

/-- **A stream hands out what it reads**, and when it is asked in vain it has read everything. -/
theorem Streams.nexts (h : Streams q a bound s r out) (hq : q.limit = none) (count : Nat) :
    ∃ (later : List Measurement) (vain : Nat), later.length + vain = count ∧
      (r.nexts store count s).value.1 =
        later.map (fun m => some (.ok m)) ++ List.replicate vain none ∧
      Streams q a bound (r.nexts store count s).state (r.nexts store count s).value.2
        (out ++ later) ∧
      (0 < vain → (r.nexts store count s).value.2.exhausted = true ∧
        (r.nexts store count s).value.2.buffer = []) := by
  induction count generalizing s r out with
  | zero =>
      refine ⟨[], 0, rfl, rfl, ?_, fun hvain => absurd hvain (Nat.lt_irrefl 0)⟩
      rwa [List.append_nil]
  | succ count ih =>
      obtain ⟨r', s', hnext, hempty, hstreams⟩ := h.next_eq hq
      unfold RecordStream.nexts
      simp only [Action.bind_apply, Action.pure_apply, hnext]
      have hready : r'.ready = r'.buffer := by
        unfold RecordStream.ready
        rw [hstreams.query, hq]
      -- With nothing at hand after this call the stream is over, and all further calls are in vain.
      cases hbuffer : r'.buffer with
      | nil =>
          rw [hbuffer] at hready
          have hover : r'.isOver = true := by simpa [RecordStream.isEmpty, hready] using hempty
          have hhandOut : r'.handOut = (none, r') := by simp [RecordStream.handOut, hready]
          have hlast : r'.exhausted = true := by
            simpa [RecordStream.isOver, RecordStream.limitReached, hstreams.query, hq] using hover
          rw [hhandOut, RecordStream.nexts_of_isOver hready hover]
          refine ⟨[], count + 1, Nat.zero_add _, rfl, ?_, fun _ => ⟨hlast, hbuffer⟩⟩
          rwa [List.append_nil]
      | cons m buffer =>
          have hhandOut : r'.handOut = (some (.ok m), r'.advance 1) :=
            RecordStream.handOut_of_head? (by rw [hready, hbuffer, List.head?_cons])
          have hadvance : Streams q a bound s' (r'.advance 1) (out ++ [m]) := by
            refine ⟨hstreams.query, hstreams.read, ?_, hstreams.cursor, hstreams.fresh⟩
            rw [← hstreams.out, hbuffer, List.append_assoc]
            show _ ++ ([m] ++ r'.buffer.drop 1) = _
            rw [hbuffer]
            rfl
          obtain ⟨later, vain, hcount, hanswers, hend, hvain⟩ := ih hadvance
          rw [hhandOut]
          refine ⟨m :: later, vain, ?_, ?_, ?_, hvain⟩
          · rw [List.length_cons]
            omega
          · rw [hanswers]
            rfl
          · rwa [List.append_assoc] at hend

end Shared

/-! ## What a stream hands out

A measurement is handed out again only if it was overtaken in between. When nothing arrives any
longer, the stream comes to its end. -/

/-- What is said of a stream that was asked for measurements while others arrived: it handed out
`out`, and then it was asked in vain so many times. -/
structure Query.HandedOut (q : Query) (a : Archive) (out : List Measurement) (vain : Nat)
    (d : Done Shared (List (Option (Except StoreError Measurement)) × RecordStream)) : Prop where
  answers : d.value.1 = out.map (fun m => some (.ok m)) ++ List.replicate vain none
  stored : ∀ m ∈ out, d.state.archive.measurements.find? m.id = some m ∧ q.isMatch m = true
  /-- When the stream is over, nothing is missing that was there at the beginning. -/
  complete : 0 < vain → d.value.2.isOver = true ∧
    ∀ m, a.measurements.find? m.id = some m → q.isMatch m = true → m ∈ out
  /-- A name comes twice only if the measurement was overtaken. -/
  twice : out.Pairwise fun m n => m.id = n.id → q.overtaken m d.state.history
  /-- A measurement was overtaken after it had been read, and before it was read again. -/
  again : out <+: readings d.state.history ∧ q.RereadsOvertaken d.state.history

/-- **While measurements arrive, a stream misses nothing**, and it comes to an end. It repeats
itself only where something arrived before what it had read. -/
theorem RecordStream.nexts_while_arriving {a : Archive} {q : Query} (hq : q.limit = none)
    {mss : List (List Measurement)} (hfresh : a.Fresh mss.flatten) (pageSize count : Nat) :
    ∃ out vain,
      q.HandedOut a out vain
        ((ofQuery q pageSize).nexts Shared.store count (.ofArchive a (arriving mss))) ∧
      ((a.listed q).length + mss.flatten.length < count → 0 < vain) := by
  have hstart : Shared.Streams q a ((a.listed q).length + mss.flatten.length)
      (.ofArchive a (arriving mss)) (ofQuery q pageSize) [] :=
    ⟨rfl, .nil q a, rfl, fun _ => rfl, mss, rfl, hfresh, Nat.le_refl _⟩
  obtain ⟨out, vain, hcount, hanswers, hend, hvain⟩ := hstart.nexts hq count
  generalize (ofQuery q pageSize).nexts Shared.store count (.ofArchive a (arriving mss)) = d at *
  rw [List.nil_append] at hend
  have hfront : out <+: readings d.state.history := ⟨_, hend.out⟩
  refine ⟨out, vain, ⟨hanswers, ?_, ?_, ?_, hfront, hend.read.again⟩, ?_⟩
  · exact fun m hm => hend.read.stored m (hfront.subset hm)
  · -- Behind the last page nothing is left to come, so all that was there has been read.
    intro hpos
    obtain ⟨hlast, hbuffer⟩ := hvain hpos
    refine ⟨by simp [isOver, hlast], fun m hm hmatch => ?_⟩
    have hall := hend.out
    rw [hbuffer, List.append_nil] at hall
    rcases hend.read.covered m ((Archive.mem_listed_iff hq m).2 ⟨hm, hmatch⟩) with hread | hleft
    · rwa [hall]
    · rw [hlast] at hleft
      cases hleft.1
  · exact hend.read.twice.sublist hfront.sublist
  · -- A call that is not in vain brings the stream forward in a list that is no longer than this.
    intro hlong
    obtain ⟨rest, -, -, hbound⟩ := hend.fresh
    have hout := hfront.length_le
    have hplace := hend.read.place
    omega

/-! ## A stream that repeats itself

Repetitions do happen: the place of the cursor is counted from the front of the list, and something
arrives there. In pages of one, each call asks for what stands at one place. -/

/-- The stream of a query in pages of one, from a place on. -/
def RecordStream.singly (q : Query) (place : Nat) : RecordStream :=
  ⟨q, 1, cursorAt place, [], place, false⟩

/-- A page of one hands out what stands at the place, and names the next place if there is one. -/
theorem Shared.next_singly {q : Query} {s : Shared} {place : Nat} {m : Measurement}
    {rest : List Measurement} (hq : q.limit = none)
    (h : (s.await.archive.listed q).drop place = m :: rest) :
    (RecordStream.singly q place).next store s =
      ⟨(some (.ok m), if rest.isEmpty then ⟨q, 1, none, [], place + 1, true⟩
        else .singly q (place + 1)), s.afterRead [m], []⟩ := by
  have hempty : (RecordStream.singly q place).isEmpty = true := by
    simp [RecordStream.singly, RecordStream.isEmpty, RecordStream.ready, RecordStream.isOver,
      RecordStream.limitReached, hq]
  have hlength : (s.await.archive.listed q).length - place = rest.length + 1 := by
    rw [← List.length_drop, h, List.length_cons]
  have hpage : Archive.pageFrom (s.await.archive.listed q) place 1 =
      ⟨[m], if rest.isEmpty then none else cursorAt (place + 1)⟩ := by
    rw [Archive.pageFrom, h]
    cases rest with
    | nil => exact congrArg (Page.mk [m]) (if_neg (by simp at hlength; omega))
    | cons n rest => exact congrArg (Page.mk [m]) (if_pos (by simp at hlength; omega))
  have hplace : place ≤ (s.await.archive.listed q).length := by omega
  refine (next_of_isEmpty hempty rfl hplace).trans ?_
  simp only [RecordStream.singly, hpage]
  cases rest <;> simp [RecordStream.handOut, RecordStream.ready, RecordStream.withPage,
    RecordStream.advance, hq, cursorAt]

/-- A ping at the first instant of 1970. -/
def Measurement.pingNamed (name : String) : Measurement :=
  ⟨⟨name⟩, .ping, .epoch, true, .empty, .empty, ⟨"phone"⟩, none⟩

def Archive.ofPings (names : List String) : Archive :=
  names.foldl (fun a name => a.insertMeasurement (.pingNamed name)) (empty 0)

theorem Archive.fresh_ofPings : (Archive.ofPings ["b", "c"]).Fresh [.pingNamed "a"] := by
  unfold Fresh
  decide +kernel

theorem Archive.listed_ofPings : (Archive.ofPings ["b", "c"]).listed Run.ofFirstInstant.query =
    [.pingNamed "b", .pingNamed "c"] := by
  rw [listed_eq_of_pairwise rfl (by decide +kernel)]
  decide +kernel

theorem Archive.listed_ofPings_arrived :
    ((ofPings ["b", "c"]).insertMeasurement (.pingNamed "a")).listed Run.ofFirstInstant.query =
      [.pingNamed "a", .pingNamed "b", .pingNamed "c"] := by
  rw [listed_eq_of_pairwise rfl (by decide +kernel)]
  decide +kernel

theorem RecordStream.nexts_while_ping_arrives :
    (Archive.ofPings ["b", "c"]).Fresh [.pingNamed "a"] ∧
      ∃ out vain, 0 < vain ∧ Run.ofFirstInstant.query.HandedOut (.ofPings ["b", "c"]) out vain
        ((ofQuery Run.ofFirstInstant.query 1).nexts Shared.store 4
          (.ofArchive (.ofPings ["b", "c"]) (arriving [[], [.pingNamed "a"]]))) := by
  have hlimit : Run.ofFirstInstant.query.limit = none := rfl
  have harriving : (Archive.ofPings ["b", "c"]).Fresh
    [[], [Measurement.pingNamed "a"]].flatten := Archive.fresh_ofPings
  obtain ⟨out, vain, hout, hvain⟩ := nexts_while_arriving hlimit harriving 1 4
  refine ⟨Archive.fresh_ofPings, out, vain, hvain ?_, hout⟩
  rw [Archive.listed_ofPings]
  decide

/-- **A stream may hand out a measurement twice.** In pages of one it goes through two pings, and
when the first is read, a third one arrives before it. -/
theorem RecordStream.repeats_after_arrival :
    (Archive.ofPings ["b", "c"]).Fresh [.pingNamed "a"] ∧
      ((ofQuery Run.ofFirstInstant.query 1).nexts Shared.store 4
          (.ofArchive (.ofPings ["b", "c"]) (arriving [[], [.pingNamed "a"]]))).value.1.map
        (fun answer => (answer.bind Except.toOption).map (·.id.text)) =
          [some "b", some "b", some "c", none] := by
  refine ⟨Archive.fresh_ofPings, ?_⟩
  generalize hq : Run.ofFirstInstant.query = q
  have hlimit : q.limit = none := hq ▸ rfl
  have hbefore := hq ▸ Archive.listed_ofPings
  have hafter := hq ▸ Archive.listed_ofPings_arrived
  let start := Shared.ofArchive (.ofPings ["b", "c"]) (arriving [[], [.pingNamed "a"]])
  let later := start.afterRead [.pingNamed "b"]
  -- The first call reads `b` at place 0. When `a` has arrived, `b` stands at place 1, and `c` at 2.
  have hfirst : (singly q 0).next Shared.store start =
      ⟨(some (.ok (.pingNamed "b")), singly q 1), later, []⟩ :=
    Shared.next_singly (s := start) hlimit (congrArg (List.drop 0) hbefore)
  have hsecond : (singly q 1).next Shared.store later =
      ⟨(some (.ok (.pingNamed "b")), singly q 2), later.afterRead [.pingNamed "b"], []⟩ :=
    Shared.next_singly (s := later) hlimit (congrArg (List.drop 1) hafter)
  have hthird : (singly q 2).next Shared.store (later.afterRead [.pingNamed "b"]) =
      ⟨(some (.ok (.pingNamed "c")), ⟨q, 1, none, [], 3, true⟩),
        (later.afterRead [.pingNamed "b"]).afterRead [.pingNamed "c"], []⟩ :=
    Shared.next_singly (s := later.afterRead _) hlimit (congrArg (List.drop 2) hafter)
  have hlast : ∀ s, (⟨q, 1, none, [], 3, true⟩ : RecordStream).next Shared.store s =
      ⟨(none, ⟨q, 1, none, [], 3, true⟩), s, []⟩ := by
    intro s
    rw [next_of_not_isEmpty (by simp [isEmpty, isOver])]
    simp [handOut, ready, hlimit]
  show ((singly q 0).nexts Shared.store 4 start).value.1.map _ = _
  simp only [nexts, Action.bind_apply, Action.pure_apply, hfirst, hsecond, hthird, hlast]
  rfl

end NetAudit
