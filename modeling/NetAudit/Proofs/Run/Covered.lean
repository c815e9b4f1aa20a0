import Mathlib.Logic.ExistsUnique
import NetAudit.Proofs.Run.Split

/-!
# Runs that share out a time

Runs over windows in a row share out the records of the whole time: each of these comes from the
stream of exactly one run, and what the runs report adds up to what one run over all of it reports.
The order of the runs makes no difference, since none of them sees the others. All of this is
`Run.covers_of_tiles`.
-/

namespace NetAudit

open Calendar (Instant)

/-! ## What comes from a stream

A run does not show which records it was given, so the same stream is asked to note them. What it
notes on an archive are the records of the run. -/

theorem Action.foldlM_noting {σ α μ : Type} (f : α → μ → Action σ α) (ms : List μ) (a : α)
    (noted : List μ) (s : σ) :
    (ms.foldlM (fun (p : α × List μ) m => do return (← f p.1 m, p.2 ++ [m])) (a, noted)).outcome s =
      ((((ms.foldlM f a).outcome s).1, noted ++ ms), ((ms.foldlM f a).outcome s).2) := by
  induction ms generalizing a noted s with
  | nil =>
      rw [List.append_nil]
      rfl
  | cons m ms ih =>
      rw [List.foldlM_cons, List.foldlM_cons, outcome_bind, outcome_bind, outcome_bind,
        outcome_pure, ih, List.append_assoc]
      rfl

namespace Run

/-- Observe all records of the run, with a list of them in the order in which they come. -/
def stream {σ : Type} (store : Store σ) (r : Run) :
    Action σ ((Tally × List Measurement) × Option StoreError) :=
  (RecordStream.ofQuery r.query r.config.pageSize).forEach store
    (fun p m => do return (← r.observe store p.1 m, p.2 ++ [m])) (.initial, [])

/-- **The records of a run are what comes from its stream**, and what it counts. -/
theorem stream_outcome (r : Run) (a : Archive) :
    ((r.stream Archive.store).outcome a).1 = ((r.tally a, r.records a), none) := by
  -- The stream is known for stores with outages; the archive is such a store without any.
  let o : Outages := {}
  have hkeeps : KeepsRest Outages.State.archive r.query
      fun (p : Tally × List Measurement) m => do return (← r.observe o.store p.1 m, p.2 ++ [m]) :=
    fun p m s done rest hlist => r.keepsRest_observe o p.1 m s done rest hlist
  obtain ⟨k, hk, heq⟩ := RecordStream.forEach_eq o.servesPages r.query r.config.pageSize hkeeps
    (.initial, []) ⟨a, 0⟩
  have hpages : (r.query.cursors a (max r.config.pageSize 1)).findSome? o.page = none :=
    List.findSome?_eq_none_iff.2 fun _ _ => rfl
  simp only [hpages, forall_const] at hk heq
  rw [List.take_of_length_le hk, ← r.records_eq_listed] at heq
  have hstored : ∀ m ∈ r.records a, a.measurements.contains m.id = true :=
    fun m hm => isStored_of_mem_records hm
  have hsound : ((r.stream o.store).outcome ⟨a, 0⟩).1 = ((r.tally a, r.records a), none) := by
    unfold stream Action.outcome
    rw [heq]
    show (Action.outcome (_ >>= _) _).1 = _
    rw [Action.outcome_bind, Action.foldlM_noting,
      r.foldlM_observe_outcome o .initial _ ⟨a, 0⟩ hstored]
    rfl
  have hfollows : (r.stream o.store).Follows Outages.State.archive (r.stream Archive.store) := by
    apply RecordStream.forEach_follows Outages.store_follows
    intro p m
    exact .bind_eq (r.observe_follows Outages.store_follows p.1 m) fun _ => .pure rfl
  exact (congrArg Prod.fst (hfollows.outcome_eq ⟨a, 0⟩)).trans hsound

/-- What comes from the stream of the run with the number `i`, of runs that are made in a row. -/
def streamedAt (unscheduled : List Window) (rs : List Run) (a : Archive) (i : Nat) :
    List Measurement :=
  match rs[i]? with
  | some r => ((r.stream Archive.store)
      (executeAll Archive.store unscheduled (rs.take i) a).state).value.1.2
  | none => []

theorem getElem?_stages {rs : List Run} {i : Nat} {r : Run} (h : rs[i]? = some r) (a : Archive) :
    (stages a rs)[i]? = some (r, leaveAll a (rs.take i)) := by
  induction rs generalizing a i with
  | nil => cases h
  | cons q rs ih =>
      cases i with
      | zero =>
          obtain rfl : q = r := Option.some.inj h
          rfl
      | succ i => exact ih h (q.leave a)

/-- What a run reads among runs with disjoint windows are the records that it would have without
the others. -/
theorem streamedAt_eq {rs : List Run} (h : rs.Pairwise fun r q => r.window.Disjoint q.window)
    (unscheduled : List Window) (a : Archive) {i : Nat} {r : Run} (hi : rs[i]? = some r) :
    streamedAt unscheduled rs a i = r.records a := by
  have hstate : (executeAll Archive.store unscheduled (rs.take i) a).state =
      leaveAll a (rs.take i) :=
    congrArg Prod.snd (executeAll_outcome unscheduled (rs.take i) a)
  have hstage := records_of_mem_stages h (List.mem_of_getElem? (getElem?_stages hi a))
  have hstream := congrArg (fun x => x.1.2) (r.stream_outcome (leaveAll a (rs.take i)))
  unfold streamedAt
  rw [hi]
  show ((r.stream Archive.store) _).value.1.2 = _
  rw [hstate]
  exact hstream.trans hstage

section Streamed

variable {unscheduled : List Window} {rs : List Run} {a : Archive} {m : Measurement}

theorem exists_of_mem_streamedAt (h : rs.Pairwise fun r q => r.window.Disjoint q.window) {i : Nat}
    (hm : m ∈ streamedAt unscheduled rs a i) : ∃ r, rs[i]? = some r ∧ m ∈ r.records a := by
  cases hi : rs[i]? with
  | none =>
      unfold streamedAt at hm
      rw [hi] at hm
      exact absurd hm List.not_mem_nil
  | some r =>
      rw [streamedAt_eq h unscheduled a hi] at hm
      exact ⟨r, rfl, hm⟩

/-- No record comes from two of the runs, as their windows would share its instant. -/
theorem eq_of_mem_streamedAt (h : rs.Pairwise fun r q => r.window.Disjoint q.window) {i j : Nat}
    (hi : m ∈ streamedAt unscheduled rs a i) (hj : m ∈ streamedAt unscheduled rs a j) :
    i = j := by
  obtain ⟨r, hr, hrm⟩ := exists_of_mem_streamedAt h hi
  obtain ⟨q, hq, hqm⟩ := exists_of_mem_streamedAt h hj
  obtain ⟨hilt, rfl⟩ := List.getElem?_eq_some_iff.1 hr
  obtain ⟨hjlt, rfl⟩ := List.getElem?_eq_some_iff.1 hq
  have hdisjoint := List.pairwise_iff_getElem.1 h
  rcases Nat.lt_trichotomy i j with hlt | heq | hlt
  · exact absurd hqm (not_mem_records_of_disjoint (hdisjoint i j hilt hjlt hlt) hrm)
  · exact heq
  · exact absurd hrm (not_mem_records_of_disjoint (hdisjoint j i hjlt hilt hlt) hqm)

end Streamed

end Run

/-! ## All of the time

If windows follow each other without a gap, a record of the whole time lies in just one of them. As
the runs do not see each other, it comes from the stream of the run over that window and no
other. -/

/-- A report counts of every kind what other reports count of it together. -/
structure Report.IsSum (rep : Report) (reps : List Report) : Prop where
  records : ∀ k, rep.recordsOf k = Number.total (reps.map (·.recordsOf k))
  errors : ∀ k, rep.errorsOf k = Number.total (reps.map (·.errorsOf k))
  categories : ∀ k tag, rep.categoryOf k tag = Number.total (reps.map (·.categoryOf k tag))

/-- The runs, made one after the other, cover the time between two instants. -/
structure Run.Covers (rs : List Run) (start last : Instant) : Prop where
  /-- Every record of that time comes from the stream of exactly one run, if there is no limit where
  it lies. -/
  once : ∀ (unscheduled : List Window) (a : Archive) (m : Measurement),
    a.measurements.find? m.id = some m → start ≤ m.timestamp → m.timestamp < last →
      (∀ r ∈ rs, r.window.contains m.timestamp = true → r.limit = none) →
        ∃! i, m ∈ streamedAt unscheduled rs a i
  /-- With limits there is at most one. -/
  atMostOnce : ∀ (unscheduled : List Window) (a : Archive) (m : Measurement) (i j : Nat),
    m ∈ streamedAt unscheduled rs a i → m ∈ streamedAt unscheduled rs a j → i = j
  nodup : ∀ (unscheduled : List Window) (a : Archive) (i : Nat),
    ((streamedAt unscheduled rs a i).map (·.id)).Nodup
  /-- No other record comes from any of them. -/
  only : ∀ (unscheduled : List Window) (a : Archive) (i : Nat),
    ∀ m ∈ streamedAt unscheduled rs a i,
      a.measurements.find? m.id = some m ∧ start ≤ m.timestamp ∧ m.timestamp < last
  /-- Without limits, the reports add up to that of one run over the whole time. -/
  counts : (∀ r ∈ rs, r.limit = none) →
    ∀ (unscheduled : List Window) (a : Archive) (c : Config) (n : String × Instant),
      ∃ (reps : List Report) (rep : Report),
        (executeAll Archive.store unscheduled rs a).value = reps.map .ok ∧
          (((between c start last n).execute Archive.store unscheduled).perform a).value = .ok rep ∧
          rep.IsSum reps

namespace Run

variable {rs : List Run} {ws : List Window} {start last : Instant}

theorem pairwise_disjoint_of_perm (hws : Window.Tiles ws start last)
    (hrs : (rs.map (·.window)).Perm ws) :
    rs.Pairwise fun r q => r.window.Disjoint q.window := by
  have hpairwise := (hrs.pairwise_iff fun h => Window.Disjoint.symm h).2 hws.pairwise_disjoint
  exact List.pairwise_map.1 hpairwise

/-- What adds up over records in a row adds up over the runs. -/
theorem total_map_records (hws : Window.Tiles ws start last) (hrs : (rs.map (·.window)).Perm ws)
    (hlimit : ∀ r ∈ rs, r.limit = none) (a : Archive) {count : List Measurement → Nat}
    (hcount : ∀ ms ns, count (ms ++ ns) = count ms + count ns) :
    Number.total (rs.map fun r => count (r.records a)) = count (a.within ⟨start, last⟩) := by
  have hzero : count [] = 0 := by
    have h := hcount [] []
    rw [List.append_nil] at h
    omega
  -- What is counted adds up along a list, and so it does along the windows that cut up the records.
  have hflat : ∀ vs : List Window,
      count (vs.flatMap a.within) = Number.total (vs.map fun w => count (a.within w)) := by
    intro vs
    induction vs with
    | nil => exact hzero
    | cons w vs ih => rw [List.flatMap_cons, hcount, ih, List.map_cons, Number.total]
  have hwindows : (rs.map fun r => count (r.records a)) =
      (rs.map (·.window)).map fun w => count (a.within w) := by
    rw [List.map_map]
    apply List.map_congr_left
    intro r hr
    rw [a.within_eq_records (hlimit r hr)]
    rfl
  rw [a.within_eq_flatMap hws, hflat, hwindows]
  exact Number.total_perm (hrs.map _)

/-- **The reports of runs over windows in a row add up** to that of one run. -/
theorem isSum_of_tiles (hws : Window.Tiles ws start last) (hrs : (rs.map (·.window)).Perm ws)
    (hlimit : ∀ r ∈ rs, r.limit = none) (unscheduled : List Window) (a : Archive) (c : Config)
    (n : String × Instant) :
    ((between c start last n).reportOn a unscheduled).IsSum
      ((stages a rs).map fun p => p.1.reportOn p.2 unscheduled) := by
  have hsums := (between c start last n).sums_reportOn a unscheduled
  rw [records_between] at hsums
  -- What the reports count is what the records of the runs are.
  have hreps : ∀ (count : Report → Nat) (count' : List Measurement → Nat),
      (∀ p ∈ stages a rs,
        count (p.1.reportOn p.2 unscheduled) = count' (p.1.records a)) →
      (∀ ms ns, count' (ms ++ ns) = count' ms + count' ns) →
      count' (a.within ⟨start, last⟩) =
        Number.total (((stages a rs).map fun p => p.1.reportOn p.2 unscheduled).map count) := by
    intro count count' heach hadd
    have hruns := congrArg (List.map fun r : Run => count' (r.records a)) (map_fst_stages a rs)
    rw [List.map_map] at hruns
    rw [← total_map_records hws hrs hlimit a hadd, ← hruns, List.map_map]
    exact congrArg Number.total (List.map_congr_left fun p hp => (heach p hp).symm)
  have hstage := fun p hp => sums_of_mem_stages (pairwise_disjoint_of_perm hws hrs)
    (p := p) (a := a) hp unscheduled
  constructor
  case records =>
    intro k
    rw [hsums.records]
    apply hreps (·.recordsOf k) (fun ms => (a.counted ms k).length)
    · exact fun p hp => (hstage p hp).records k
    · intro ms ns
      rw [a.counted_append, List.length_append]
  case errors =>
    intro k
    rw [hsums.errors]
    apply hreps (·.errorsOf k) (fun ms => (a.counted ms k).countP Measurement.isInvalid)
    · exact fun p hp => (hstage p hp).errors k
    · intro ms ns
      rw [a.counted_append, List.countP_append]
  case categories =>
    intro k tag
    rw [hsums.categories]
    apply hreps (·.categoryOf k tag)
      (fun ms => ((a.counted ms k).flatMap Measurement.errors).count tag)
    · exact fun p hp => (hstage p hp).categories k tag
    · intro ms ns
      rw [a.counted_append, List.flatMap_append, List.count_append]

/-- **Runs over windows in a row cover the whole time**, in whatever order they are made. -/
theorem covers_of_tiles (hws : Window.Tiles ws start last) (hrs : (rs.map (·.window)).Perm ws) :
    Covers rs start last := by
  have hdisjoint := pairwise_disjoint_of_perm hws hrs
  constructor
  case once =>
    -- The record lies in one of the windows, and the run over that window has no limit.
    intro unscheduled a m hstored hstart hlast hlimit
    have hmem : m ∈ a.within ⟨start, last⟩ :=
      Archive.mem_within_iff.2 ⟨hstored, Window.contains_iff.2 ⟨hstart, hlast⟩⟩
    rw [a.within_eq_flatMap hws] at hmem
    obtain ⟨w, hw, hmem⟩ := List.mem_flatMap.1 hmem
    obtain ⟨r, hr, rfl⟩ := List.mem_map.1 (hrs.mem_iff.2 hw)
    obtain ⟨i, hi⟩ := List.mem_iff_getElem?.1 hr
    have hstreams : m ∈ streamedAt unscheduled rs a i := by
      have hnone := hlimit r hr (Archive.mem_within_iff.1 hmem).2
      rw [streamedAt_eq hdisjoint unscheduled a hi, a.within_eq_records hnone]
      exact hmem
    exact ⟨i, hstreams, fun j hj => eq_of_mem_streamedAt hdisjoint hj hstreams⟩
  case atMostOnce =>
    intro unscheduled a m i j hi hj
    exact eq_of_mem_streamedAt hdisjoint hi hj
  case nodup =>
    intro unscheduled a i
    cases hi : rs[i]? with
    | none =>
        unfold streamedAt
        rw [hi]
        exact List.nodup_nil
    | some r =>
        rw [streamedAt_eq hdisjoint unscheduled a hi, records_eq_listed]
        exact a.nodup_ids_listed r.query
  case only =>
    intro unscheduled a i m hm
    obtain ⟨r, hr, hrm⟩ := exists_of_mem_streamedAt hdisjoint hm
    have hwithin := (a.records_sublist_within r).subset hrm
    have hw := hrs.mem_iff.1 (List.mem_map_of_mem (List.mem_of_getElem? hr))
    have hmem : m ∈ a.within ⟨start, last⟩ := by
      rw [a.within_eq_flatMap hws]
      exact List.mem_flatMap.2 ⟨_, hw, hwithin⟩
    obtain ⟨hstored, hcontains⟩ := Archive.mem_within_iff.1 hmem
    exact ⟨hstored, Window.contains_iff.1 hcontains⟩
  case counts =>
    intro hlimit unscheduled a c n
    refine ⟨(stages a rs).map fun p => p.1.reportOn p.2 unscheduled, _, ?_,
      ((between c start last n).perform_execute a unscheduled).1,
      isSum_of_tiles hws hrs hlimit unscheduled a c n⟩
    rw [List.map_map]
    exact congrArg Prod.fst (executeAll_outcome unscheduled rs a)

end Run

end NetAudit
