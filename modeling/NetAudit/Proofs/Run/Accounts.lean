import NetAudit.Proofs.Counts
import NetAudit.Proofs.Run.Visits

/-!
# What the accounts of a run tell

The accounts of a run are filled one record at a time, and `Account.Tells` says what each of them
then holds: the counts of the records that were scored on it, and those of them that wait for their
entries. One record more keeps this (`Account.Tells.score`), and so does one visit more for the
tally (`Tally.Tells.visit`). So the tally of a run tells what became of all of its records
(`Tally.tells_ofVisits`).
-/

namespace NetAudit

/-! ## The errors of a measurement

A measurement has the errors that its validator finds. Without a validator it has none, so that it
is counted as a record, but never as an invalid one. -/

namespace Measurement

/-- The errors that the validator of the measurement finds; none without a validator. -/
def errors (m : Measurement) : List String :=
  match Validator.of? m with
  | .ok v => v.score.errors
  | .error _ => []

/-- Errors are found. -/
def isInvalid (m : Measurement) : Bool := !m.errors.isEmpty

/-- What waits for its summary, for a measurement with errors. -/
def pendingEntry (m : Measurement) : PendingEntry := ⟨m.id, m.errors⟩

end Measurement

theorem Validator.of?_eq_error {m : Measurement} (h : m.kind.isValidated = false) :
    Validator.of? m = .error ⟨m.kind⟩ := by
  unfold of?
  cases hkind : m.kind with
  | ping | dnsLookup | traceroute | http | udpBurst =>
      rw [hkind] at h
      cases h
  | tcpThroughput | rrc | other => rfl

theorem Validator.exists_of?_eq_ok {m : Measurement} (h : m.kind.isValidated = true) :
    ∃ v, Validator.of? m = .ok v := by
  unfold of?
  cases hkind : m.kind with
  | ping | dnsLookup | traceroute | http | udpBurst => exact ⟨_, rfl⟩
  | tcpThroughput | rrc =>
      rw [hkind] at h
      cases h
  | other tag unknown =>
      rw [hkind] at h
      simp [Kind.isValidated, Kind.validated] at h

/-- **A kind has a validator or not**, whatever the measurement. -/
theorem Validator.of?_isOk (m : Measurement) : (of? m).isOk = m.kind.isValidated := by
  cases hkind : m.kind.isValidated with
  | true =>
      obtain ⟨v, hv⟩ := exists_of?_eq_ok hkind
      rw [hv]
      rfl
  | false =>
      rw [of?_eq_error hkind]
      rfl

theorem Measurement.errors_eq_nil {m : Measurement} (h : m.kind.isValidated = false) :
    m.errors = [] := by
  unfold errors
  rw [Validator.of?_eq_error h]

/-! ## One account

`Account.Tells` is the invariant of an account: each of its fields is a function of the records that
were scored on it so far. -/

namespace Account

/-- What an account of a kind tells, after the records `ms` were scored on it. -/
structure Tells (a : Account) (w : Window) (k : Kind) (ms : List Measurement) : Prop where
  kind : a.summary.kind = k
  /-- The account is marked if its kind has no validator. -/
  mark : a.summary.isUnknown = !k.isValidated
  windowStart : a.summary.windowStart = if ms = [] then none else some w.start
  windowEnd : a.summary.windowEnd = if ms = [] then none else some w.stop
  recordCount : a.summary.recordCount = ms.length
  errorCount : a.summary.errorCount = ms.countP Measurement.isInvalid
  errorCounts : a.summary.errorCounts = Counts.ofNames (ms.flatMap Measurement.errors)
  pending : a.pending = (ms.filter Measurement.isInvalid).map Measurement.pendingEntry

variable {a : Account} {w : Window} {k : Kind} {ms : List Measurement}

/-- An account of no records tells nothing but its mark. -/
theorem tells_new {x : Summary} (hx : x = { Summary.new k with error := x.error })
    (hmark : x.isUnknown = !k.isValidated) : (new x).Tells w k [] := by
  refine ⟨?_, hmark, ?_, ?_, ?_, ?_, ?_, rfl⟩
  all_goals
    show _ = _
    rw [new, hx]
    rfl

/-- What a score changes: a record is counted, and one with errors is kept as well. -/
theorem score_eq (a : Account) (c : Config) (w : Window) (device : DeviceInfo) (m : Measurement) :
    ∃ details, a.score c w device m =
      if m.isInvalid then
        ⟨(a.summary.stamp w).countRecord.countErrors m.errors, a.pending ++ [m.pendingEntry],
          details⟩
      else ⟨(a.summary.stamp w).countRecord, a.pending, details⟩ := by
  unfold score Measurement.isInvalid Measurement.pendingEntry Measurement.errors
  cases Validator.of? m with
  | error e => exact ⟨a.details, rfl⟩
  | ok v =>
      unfold enter
      have hvalid := v.score.isValid_eq
      refine ⟨if c.shows v.score then a.details ++ [detailText device m v v.score]
        else a.details, ?_⟩
      cases hshown : c.shows v.score <;> cases herrors : v.score.errors.isEmpty <;>
        rw [herrors] at hvalid <;> simp [hshown, hvalid, count]

/-- With its first record an account gets the window, and keeps it. -/
theorem Tells.stamp_eq (h : a.Tells w k ms) :
    a.summary.stamp w =
      { a.summary with windowStart := some w.start, windowEnd := some w.stop } := by
  unfold Summary.stamp
  rw [h.windowStart]
  by_cases hms : ms = []
  · simp [hms]
  · have hstart := h.windowStart
    have hend := h.windowEnd
    rw [if_neg hms] at hstart hend ⊢
    rw [if_pos Option.isSome_some, ← hstart, ← hend]

/-- **An account with one record more** tells of one record more. -/
theorem Tells.score (h : a.Tells w k ms) (c : Config) (device : DeviceInfo) (m : Measurement) :
    (a.score c w device m).Tells w k (ms ++ [m]) := by
  have hcount : a.summary.recordCount + 1 = (ms ++ [m]).length := by
    rw [h.recordCount, List.length_append]
    rfl
  obtain ⟨details, hscore⟩ := a.score_eq c w device m
  rw [hscore, h.stamp_eq]
  -- Kind, mark, window and record count do not depend on the errors of the record.
  cases hinvalid : m.isInvalid with
  | true =>
      refine ⟨h.kind, h.mark, by simp; rfl, by simp; rfl, hcount, ?_, ?_, ?_⟩
      · show a.summary.errorCount + 1 = _
        rw [h.errorCount, List.countP_append]
        simp [hinvalid]
      · show m.errors.foldl Counts.bump a.summary.errorCounts = _
        rw [h.errorCounts]
        simp [Counts.ofNames]
      · show a.pending ++ [m.pendingEntry] = _
        rw [h.pending]
        simp [hinvalid]
  | false =>
      have herrors : m.errors = [] := by simpa [Measurement.isInvalid] using hinvalid
      refine ⟨h.kind, h.mark, by simp; rfl, by simp; rfl, hcount, ?_, ?_, ?_⟩
      · show a.summary.errorCount = _
        rw [h.errorCount, List.countP_append]
        simp [hinvalid]
      · show a.summary.errorCounts = _
        rw [h.errorCounts]
        simp [herrors]
      · show a.pending = _
        rw [h.pending]
        simp [hinvalid]

end Account

/-! ## All accounts

`Tally.Tells` is the invariant of all accounts together, in terms of the visits so far. A visit
changes the account of one kind, or the number of records that were skipped. -/

/-- The records that were scored. -/
def scored (vs : List (Measurement × Visit)) : List Measurement :=
  (vs.filter fun p => p.2.device?.isSome).map (·.1)

/-- The records that are scored are those with a device that can be looked up. -/
theorem scored_visits (o : Outages) (a : Archive) (lookups : Nat) (ms : List Measurement) :
    scored (o.visits a lookups ms) = ms.filter fun m => (o.deviceOf a m).isSome := by
  induction ms generalizing lookups with
  | nil => rfl
  | cons m ms ih =>
      have hrest := ih (o.lookupsAfter a lookups m)
      unfold scored at hrest ⊢
      rw [Outages.visits, List.filter_cons, List.filter_cons, o.device?_visit]
      split
      · rw [List.map_cons, hrest]
      · exact hrest

theorem countP_skipped_visits (o : Outages) (a : Archive) (lookups : Nat) (ms : List Measurement) :
    (o.visits a lookups ms).countP (fun p => p.2.device?.isNone) =
      ms.countP fun m => (o.deviceOf a m).isNone := by
  induction ms generalizing lookups with
  | nil => rfl
  | cons m ms ih =>
      rw [Outages.visits, List.countP_cons, List.countP_cons, ih, o.device?_visit]

/-- The records of one kind that were scored. -/
def scoredOf (vs : List (Measurement × Visit)) (k : Kind) : List Measurement :=
  (scored vs).filter fun m => m.kind = k

theorem length_scored (vs : List (Measurement × Visit)) :
    (scored vs).length + vs.countP (fun p => p.2.device?.isNone) = vs.length := by
  have hnone : (fun p : Measurement × Visit => p.2.device?.isNone) =
      fun p => decide ¬p.2.device?.isSome = true := by
    funext p
    cases p.2.device? <;> rfl
  rw [scored, List.length_map, ← List.countP_eq_length_filter, hnone]
  have hsplit := List.length_eq_countP_add_countP
    (fun p : Measurement × Visit => p.2.device?.isSome) (l := vs)
  exact hsplit.symm

namespace Tally

/-- What a tally tells after visits. -/
structure Tells (t : Tally) (w : Window) (vs : List (Measurement × Visit)) : Prop where
  skipped : t.skipped = vs.countP fun p => p.2.device?.isNone
  repaired : t.repaired = vs.countP fun p => p.2.isRepaired
  /-- A kind without a validator has an account as soon as a record of it was scored. -/
  contains : ∀ k, t.accounts.contains k = (k.isValidated || !(scoredOf vs k).isEmpty)
  account : ∀ k a, t.accounts.find? k = some a → a.Tells w k (scoredOf vs k)

theorem find?_initial (k : Kind) :
    initial.accounts.find? k = if k.isValidated then some (.new (.new k)) else none := by
  have hnodup : ((Kind.validated.map fun k => (k, Account.new (.new k))).map (·.1)).Nodup := by
    rw [List.map_map]
    decide
  have hmem : ∀ a, initial.accounts.find? k = some a ↔
      k.isValidated = true ∧ a = .new (.new k) := by
    intro a
    unfold initial Kind.isValidated
    rw [OrderedMap.find?_ofList_eq_some_iff hnodup, List.mem_map, List.contains_iff_mem]
    constructor
    · rintro ⟨j, hj, heq⟩
      obtain ⟨rfl, rfl⟩ := Prod.mk.inj heq
      exact ⟨hj, rfl⟩
    · rintro ⟨hk, rfl⟩
      exact ⟨k, hk, rfl⟩
  split
  · next hk => exact (hmem _).2 ⟨hk, rfl⟩
  · next hk =>
      cases hfind : initial.accounts.find? k with
      | none => rfl
      | some a => exact absurd ((hmem a).1 hfind).1 hk

theorem tells_initial (w : Window) : initial.Tells w [] where
  skipped := rfl
  repaired := rfl
  contains k := by
    unfold OrderedMap.contains
    rw [find?_initial]
    cases k.isValidated <;> rfl
  account k a h := by
    rw [find?_initial] at h
    split at h
    · next hk =>
        cases h
        exact Account.tells_new rfl (by rw [hk]; rfl)
    · cases h

variable {t : Tally} {vs : List (Measurement × Visit)}

/-- The account on which the next record of a kind is scored: that of the kind, or a new one. -/
theorem Tells.account_getD {w : Window} (h : t.Tells w vs) (k : Kind) :
    ((t.accounts.find? k).getD (.new (.unknown k))).Tells w k (scoredOf vs k) := by
  cases hfind : t.accounts.find? k with
  | some a => exact h.account k a hfind
  | none =>
      have hcontains := h.contains k
      unfold OrderedMap.contains at hcontains
      rw [hfind] at hcontains
      obtain ⟨hk, hempty⟩ := Bool.or_eq_false_iff.1 hcontains.symm
      have hnone : scoredOf vs k = [] := by simpa using hempty
      rw [hnone]
      exact Account.tells_new rfl (by rw [hk]; rfl)

theorem Tells.skip {w : Window} (h : t.Tells w vs) (m : Measurement) :
    t.skip.Tells w (vs ++ [(m, .skipped)]) := by
  have hscored : ∀ k, scoredOf (vs ++ [(m, .skipped)]) k = scoredOf vs k := by
    intro k
    simp [scoredOf, scored, Visit.device?]
  constructor
  case skipped =>
    show t.skipped + 1 = _
    rw [h.skipped, List.countP_append]
    rfl
  case repaired =>
    show t.repaired = _
    rw [h.repaired, List.countP_append]
    rfl
  case contains =>
    intro k
    rw [hscored]
    exact h.contains k
  case account =>
    intro k a hfind
    rw [hscored]
    exact h.account k a hfind

theorem Tells.score {r : Run} (h : t.Tells r.window vs) (m : Measurement) (device : DeviceInfo)
    (repaired : Bool) :
    (t.visit r m (.scored device repaired)).Tells r.window
      (vs ++ [(m, .scored device repaired)]) := by
  have hscored : ∀ k, scoredOf (vs ++ [(m, .scored device repaired)]) k =
      scoredOf vs k ++ if k = m.kind then [m] else [] := by
    intro k
    by_cases hk : k = m.kind
    · simp [scoredOf, scored, Visit.device?, hk]
    · have hne : m.kind ≠ k := Ne.symm hk
      simp [scoredOf, scored, Visit.device?, hk, hne]
  -- A repair is counted apart and leaves the accounts alone.
  have haccounts : (t.visit r m (.scored device repaired)).accounts =
      t.accounts.update m.kind fun a =>
        (a.getD (.new (.unknown m.kind))).score r.config r.window device m := by
    cases repaired <;> rfl
  constructor
  case skipped =>
    rw [List.countP_append]
    cases repaired <;> exact h.skipped
  case repaired =>
    rw [List.countP_append]
    cases repaired
    · exact h.repaired
    · show t.repaired + 1 = _
      rw [h.repaired]
      rfl
  case contains =>
    intro k
    unfold OrderedMap.contains
    rw [haccounts, OrderedMap.find?_update, hscored]
    by_cases hk : k = m.kind
    · simp [hk]
    · rw [if_neg hk, if_neg hk, List.append_nil]
      exact h.contains k
  case account =>
    intro k a hfind
    rw [haccounts, OrderedMap.find?_update] at hfind
    rw [hscored]
    -- Only the account of the kind of the record has changed.
    by_cases hk : k = m.kind
    · rw [if_pos hk] at hfind ⊢
      cases hfind
      rw [hk]
      exact (h.account_getD m.kind).score r.config device m
    · rw [if_neg hk] at hfind ⊢
      rw [List.append_nil]
      exact h.account k a hfind

/-- **A tally with one visit more** tells of one visit more. -/
theorem Tells.visit {r : Run} (h : t.Tells r.window vs) (m : Measurement) (v : Visit) :
    (t.visit r m v).Tells r.window (vs ++ [(m, v)]) := by
  cases v with
  | skipped => exact h.skip m
  | scored device repaired => exact h.score m device repaired

/-- **The tally of a run tells what became of its records.** -/
theorem tells_ofVisits (r : Run) (vs : List (Measurement × Visit)) :
    (ofVisits r vs).Tells r.window vs := by
  -- The invariant is `Tells` of the visits `vs` so far; those in `us` are to come.
  have hfold : ∀ (us : List (Measurement × Visit)) (t : Tally) (vs : List (Measurement × Visit)),
      t.Tells r.window vs →
        (us.foldl (fun t p => t.visit r p.1 p.2) t).Tells r.window (vs ++ us) := by
    intro us
    induction us with
    | nil =>
        intro t vs h
        rw [List.append_nil]
        exact h
    | cons p us ih =>
        intro t vs h
        rw [List.append_cons]
        exact ih _ _ (h.visit p.1 p.2)
  exact hfold vs .initial [] (tells_initial r.window)

/-! ## Totals

The accounts sort the records by kind, so their counts add up to the number of records. -/

theorem Tells.recordCounts {w : Window} (h : t.Tells w vs) :
    t.accounts.values.map (fun a => a.summary.recordCount) =
      t.accounts.keys.map fun k => (scoredOf vs k).length := by
  unfold OrderedMap.values OrderedMap.keys
  rw [List.map_map, List.map_map]
  apply List.map_congr_left
  rintro ⟨k, a⟩ hmem
  exact (h.account k a ((OrderedMap.find?_eq_some_iff _ k a).2 hmem)).recordCount

theorem Tells.kind_mem_keys {w : Window} (h : t.Tells w vs) {m : Measurement}
    (hm : m ∈ scored vs) : m.kind ∈ t.accounts.keys := by
  have hmem : m ∈ scoredOf vs m.kind := List.mem_filter.2 ⟨hm, by simp⟩
  rw [OrderedMap.mem_keys_iff, h.contains, List.isEmpty_eq_false_iff_exists_mem.2 ⟨m, hmem⟩]
  exact Bool.or_true _

/-- **Every record was either passed over or counted on one account.** -/
theorem Tells.total_recordCounts {w : Window} (h : t.Tells w vs) :
    Number.total (t.accounts.values.map fun a => a.summary.recordCount) + t.skipped =
      vs.length := by
  -- The accounts sort the scored records by kind, and none has a kind without an account.
  have hperm := flatMap_filter_perm t.accounts.nodup_keys fun m hm => h.kind_mem_keys hm
  rw [h.recordCounts, ← Number.length_flatMap, h.skipped]
  show (t.accounts.keys.flatMap fun k => (scored vs).filter fun m => m.kind = k).length + _ = _
  rw [hperm.length_eq]
  exact length_scored vs

/-- The entries to come are as many as the errors counted. -/
theorem Tells.entryCount_eq {w : Window} (h : t.Tells w vs) :
    Run.entryCount t = Number.total (t.accounts.values.map fun a => a.summary.errorCount) := by
  unfold Run.entryCount OrderedMap.values
  rw [List.map_map, List.map_map]
  congr 1
  apply List.map_congr_left
  rintro ⟨k, a⟩ hmem
  have htells := h.account k a ((OrderedMap.find?_eq_some_iff _ k a).2 hmem)
  show a.pending.length = a.summary.errorCount
  rw [htells.pending, htells.errorCount, List.length_map, List.countP_eq_length_filter]

end Tally

end NetAudit
