import NetAudit.Proofs.Run.Results

/-!
# Runs that are interrupted

A run writes its results in a fixed order. If the store refuses one of them, all those before it
are stored and no other is; if a page of records does not come, none is (`Run.execute_interrupted`).
So a kind is either complete, or not there, or it is the one at which the run was interrupted.
-/

namespace NetAudit

/-- The writes stop within a filing: all filings before it are complete, and of it there is nothing,
or its summary with some of its entries but not all. -/
def StopsWithin (fs : List Filing) (ws : List Write) : Prop :=
  ∃ before f after id, fs = before ++ f :: after ∧ f.summary = some id ∧
    (ws = before.flatMap Filing.writes ∨ ∃ j < f.account.pending.length,
      ws = before.flatMap Filing.writes ++ .summary f.account.summary ::
        (f.account.pending.take j).map fun p => .entry (p.attach id))

theorem take_flatMap {α β : Type} (f : α → List β) {as : List α} {n : Nat}
    (h : n < (as.flatMap f).length) :
    ∃ before a after j, as = before ++ a :: after ∧ j < (f a).length ∧
      (as.flatMap f).take n = before.flatMap f ++ (f a).take j := by
  induction as generalizing n with
  | nil => exact absurd h (Nat.not_lt_zero n)
  | cons a as ih =>
      rw [List.flatMap_cons, List.length_append] at h
      rw [List.flatMap_cons, List.take_append]
      -- The cut is within the first part or further on.
      by_cases hn : n < (f a).length
      · refine ⟨[], a, as, n, rfl, hn, ?_⟩
        rw [Nat.sub_eq_zero_of_le (Nat.le_of_lt hn), List.take_zero, List.append_nil]
        rfl
      · obtain ⟨before, b, after, j, rfl, hj, htake⟩ := ih (n := n - (f a).length) (by omega)
        refine ⟨a :: before, b, after, j, rfl, hj, ?_⟩
        rw [htake, List.take_of_length_le (by omega), List.flatMap_cons, List.append_assoc]

theorem stopsWithin_take {fs : List Filing} {n : Nat} (h : n < (fs.flatMap Filing.writes).length) :
    StopsWithin fs ((fs.flatMap Filing.writes).take n) := by
  obtain ⟨before, f, after, j, rfl, hj, htake⟩ := take_flatMap Filing.writes h
  rw [htake]
  -- The cut lies within one filing: in front of its summary, or behind some of its entries.
  unfold Filing.writes at hj
  cases hid : f.summary with
  | none =>
      rw [hid] at hj
      exact absurd hj (Nat.not_lt_zero j)
  | some id =>
      rw [hid] at hj
      refine ⟨before, f, after, id, rfl, hid, ?_⟩
      have hwrites : f.writes =
          .summary f.account.summary :: f.account.pending.map fun p => .entry (p.attach id) := by
        unfold Filing.writes
        rw [hid]
      cases j with
      | zero =>
          left
          rw [List.take_zero, List.append_nil]
      | succ j =>
          right
          refine ⟨j, by simpa using hj, ?_⟩
          rw [hwrites, List.take_succ_cons, List.map_take]

namespace Run

variable (r : Run) (unscheduled : List Window) (a : Archive)

section Outages

variable (page : Option String → Option StoreError) (result : Nat → Option StoreError)
variable (lookups : Nat)

/-- If a page does not come, both tables of results stay as they are. -/
theorem results_of_page {e : StoreError} (h : (r.cursors a).findSome? page = some e) :
    let done := (r.execute (Outages.store { page, result }) unscheduled).perform ⟨a, lookups⟩
    done.value = .error (.query e) ∧ done.state.archive.summaries = a.summaries ∧
      done.state.archive.entries = a.entries := by
  intro done
  obtain ⟨ms, hrun⟩ := r.execute_of_page { page, result } unscheduled (s := ⟨a, lookups⟩) h
  obtain ⟨-, -, -, hsummaries, hentries⟩ := a.afterVisits_frame
    (({ page, result } : Outages).visits a lookups ms)
  refine ⟨congrArg Prod.fst hrun, ?_, ?_⟩
  · exact (congrArg (fun x => x.2.archive.summaries) hrun).trans hsummaries
  · exact (congrArg (fun x => x.2.archive.entries) hrun).trans hentries

/-- If all pages come, the writes of the run are put into the store. -/
theorem execute_of_results (h : (r.cursors a).findSome? page = none) :
    let o : Outages := { page, result }
    ∃ lookups', let stored := o.put ⟨a.afterVisits (r.visits a), lookups'⟩ (r.writes a)
      (r.execute o.store unscheduled).outcome ⟨a, lookups⟩ =
        (stored.1.map fun _ => r.report unscheduled (r.tally a) (r.filings a), stored.2) := by
  intro o
  have hrun := r.execute_of_pages o unscheduled (s := ⟨a, lookups⟩) h
  simp only [Outages.visited, o, Outages.visits_eq_sound] at hrun
  exact ⟨_, hrun⟩

theorem resultCount_afterVisits :
    (a.afterVisits (r.visits a)).resultCount = a.resultCount := by
  obtain ⟨-, -, -, hsummaries, hentries⟩ := a.afterVisits_frame (r.visits a)
  unfold Archive.resultCount
  rw [hsummaries, hentries]

theorem results_of_none_refused (h : (r.cursors a).findSome? page = none)
    (hnone : ∀ i < (r.writes a).length, result (a.resultCount + i) = none) :
    let done := (r.execute (Outages.store { page, result }) unscheduled).perform ⟨a, lookups⟩
    done.value = ((r.execute Archive.store unscheduled).perform a).value ∧
      done.state.archive.HasResults a (r.writes a) := by
  intro done
  obtain ⟨lookups', hrun⟩ := r.execute_of_results unscheduled a page result lookups h
  have hput := ({ page, result } : Outages).put_eq_ok
    (s := ⟨a.afterVisits (r.visits a), lookups'⟩) (by rwa [resultCount_afterVisits])
  rw [hput] at hrun
  have hsound := r.execute_archive unscheduled a
  refine ⟨(congrArg Prod.fst hrun).trans (congrArg Prod.fst hsound).symm, ?_⟩
  have hdone : done.state.archive = _ := congrArg (fun x => x.2.archive) hrun
  rw [hdone]
  exact a.hasResults_afterVisits _ _

theorem results_of_refused (h : (r.cursors a).findSome? page = none) {n : Nat} {e : StoreError}
    (hn : n < (r.writes a).length) (hbefore : ∀ i < n, result (a.resultCount + i) = none)
    (hfault : result (a.resultCount + n) = some e) :
    let done := (r.execute (Outages.store { page, result }) unscheduled).perform ⟨a, lookups⟩
    done.value = .error (.persistence (r.writes a)[n].what e) ∧
      done.state.archive.HasResults a ((r.writes a).take n) := by
  intro done
  obtain ⟨lookups', hrun⟩ := r.execute_of_results unscheduled a page result lookups h
  have hput := ({ page, result } : Outages).put_eq_error
    (s := ⟨a.afterVisits (r.visits a), lookups'⟩) hn (by rwa [resultCount_afterVisits])
    (by rwa [resultCount_afterVisits])
  rw [hput] at hrun
  refine ⟨congrArg Prod.fst hrun, ?_⟩
  have hdone : done.state.archive = _ := congrArg (fun x => x.2.archive) hrun
  rw [hdone]
  exact a.hasResults_afterVisits _ _

end Outages

/-- The filings of a run are about its records. -/
theorem records_of_mem_filings {f : Filing} (h : f ∈ r.filings a) :
    f.account.summary.kind = f.kind ∧
      ∀ p ∈ f.account.pending, ∃ m ∈ r.records a, m.id = p.measurement ∧ m.kind = f.kind := by
  have htells := tells_of_mem_filings h
  refine ⟨htells.kind, ?_⟩
  intro p hp
  rw [htells.pending] at hp
  obtain ⟨m, hm, rfl⟩ := List.mem_map.1 hp
  obtain ⟨hrecord, hkind, -⟩ := Archive.kind_of_mem_counted (List.mem_filter.1 hm).1
  exact ⟨m, hrecord, rfl, hkind⟩

/-- **No write is done out of order.** A run has its writes, filing by filing in the order of kinds.
With outages of pages and results it makes all of them as well, or those before the first that is
refused, or none if a page does not come. -/
theorem execute_interrupted :
    ∃ fs : List Filing,
      fs.Pairwise (fun f g => compare f.kind g.kind = .lt) ∧
      (∀ f ∈ fs, f.account.summary.kind = f.kind ∧
        ∀ p ∈ f.account.pending, ∃ m ∈ r.records a, m.id = p.measurement ∧ m.kind = f.kind) ∧
      let ws := fs.flatMap Filing.writes
      let sound := (r.execute Archive.store unscheduled).perform a
      (∃ rep, sound.value = .ok rep) ∧ sound.state.HasResults a ws ∧
      ∀ (page : Option String → Option StoreError) (result : Nat → Option StoreError)
        (lookups : Nat),
        let done := (r.execute (Outages.store { page, result }) unscheduled).perform ⟨a, lookups⟩
        match (r.cursors a).findSome? page with
        | some e =>
          done.value = .error (.query e) ∧ done.state.archive.summaries = a.summaries ∧
            done.state.archive.entries = a.entries
        | none =>
          ((∀ i < ws.length, result (a.resultCount + i) = none) →
            done.value = sound.value ∧ done.state.archive.HasResults a ws) ∧
          ∀ n (hn : n < ws.length) e, (∀ i < n, result (a.resultCount + i) = none) →
            result (a.resultCount + n) = some e →
              done.value = .error (.persistence ws[n].what e) ∧
                done.state.archive.HasResults a (ws.take n) ∧ StopsWithin fs (ws.take n) := by
  have hsound := r.execute_archive unscheduled a
  refine ⟨r.filings a, filings_ascending (r.tally a) a, fun f hf => r.records_of_mem_filings a hf,
    ⟨_, congrArg Prod.fst hsound⟩, ?_, ?_⟩
  · rw [show ((r.execute Archive.store unscheduled).perform a).state = _ from
      congrArg Prod.snd hsound]
    exact a.hasResults_afterVisits _ _
  · intro page result lookups done
    -- All pages are read before anything is filed, so a page that fails stops the run with nothing
    -- filed, whatever would be refused later.
    cases hpage : (r.cursors a).findSome? page with
    | some e => exact r.results_of_page unscheduled a page result lookups hpage
    | none =>
        constructor
        · intro hnone
          exact r.results_of_none_refused unscheduled a page result lookups hpage hnone
        · intro n hn e hbefore hfault
          obtain ⟨hvalue, hresults⟩ :=
            r.results_of_refused unscheduled a page result lookups hpage hn hbefore hfault
          exact ⟨hvalue, hresults, stopsWithin_take hn⟩

/-- If the entry of the one ping is refused, its summary stays. -/
example :
    let o : Outages := { result := fun n => if n = 1 then some (.backend "full") else none }
    let results := ((ofFirstInstant.execute o.store []).perform ⟨.ofOnePing, 0⟩).state.archive
    results.summaries.length = 1 ∧ results.entries.length = 0 := by
  decide +kernel

end Run

end NetAudit
