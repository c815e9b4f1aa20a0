import NetAudit.Proofs.Run.Accounts

/-!
# What a run writes

After a run has counted its records, it is settled what it will write: for each account on which
something was counted, its summary and then its entries (`Filing.writes`). These writes are put into
the store one by one, up to the first that is refused (`Outages.put`), and that is all that storing
a tally does (`Run.storeTally_puts`). Together with the visits to the records this is the whole run
(`Run.execute_of_pages`).
-/

namespace NetAudit

/-! ## Writes

A write puts one row behind one of the tables of results. Its name is counted from the number of
rows that were there. -/

/-- A summary or an entry that is handed to a store. -/
inductive Write where
  | summary (s : Summary)
  | entry (e : Entry)
deriving DecidableEq

namespace Write

/-- What an error calls it. -/
def what : Write → Written
  | summary _ => .summary
  | entry _ => .entry

def summary? : Write → Option Summary
  | summary s => some s
  | entry _ => none

def entry? : Write → Option Entry
  | summary _ => none
  | entry e => some e

end Write

/-- Values under the names from a number on. -/
def storedFrom {ι α : Type} (name : Nat → ι) : Nat → List α → List (Stored ι α)
  | _, [] => []
  | n, x :: xs => ⟨name n, x⟩ :: storedFrom name (n + 1) xs

@[simp] theorem map_value_storedFrom {ι α : Type} (name : Nat → ι) (n : Nat) (xs : List α) :
    (storedFrom name n xs).map (·.value) = xs := by
  induction xs generalizing n with
  | nil => rfl
  | cons x xs ih =>
      rw [storedFrom, List.map_cons, ih]

@[simp] theorem length_storedFrom {ι α : Type} (name : Nat → ι) (n : Nat) (xs : List α) :
    (storedFrom name n xs).length = xs.length := by
  rw [← List.length_map, map_value_storedFrom]

namespace Archive

/-- The archive with one result more. -/
def write (a : Archive) : Write → Archive
  | .summary s => { a with summaries := a.summaries ++ [⟨.nth a.first a.summaries.length, s⟩] }
  | .entry e => { a with entries := a.entries ++ [⟨.nth a.first a.entries.length, e⟩] }

/-- The archive with results in a row. -/
def writeAll (a : Archive) (ws : List Write) : Archive := ws.foldl write a

variable (a : Archive)

@[simp] theorem writeAll_cons (w : Write) (ws : List Write) :
    a.writeAll (w :: ws) = (a.write w).writeAll ws := rfl

theorem writeAll_append (ws vs : List Write) :
    a.writeAll (ws ++ vs) = (a.writeAll ws).writeAll vs := List.foldl_append

theorem write_frame (w : Write) :
    (a.write w).first = a.first ∧ (a.write w).measurements = a.measurements ∧
      (a.write w).devices = a.devices ∧ (a.write w).tasks = a.tasks := by
  cases w <;> exact ⟨rfl, rfl, rfl, rfl⟩

/-- Results are written to their tables only. -/
theorem writeAll_frame (ws : List Write) :
    (a.writeAll ws).first = a.first ∧ (a.writeAll ws).measurements = a.measurements ∧
      (a.writeAll ws).devices = a.devices ∧ (a.writeAll ws).tasks = a.tasks := by
  induction ws generalizing a with
  | nil => exact ⟨rfl, rfl, rfl, rfl⟩
  | cons w ws ih =>
      obtain ⟨h₁, h₂, h₃, h₄⟩ := ih (a.write w)
      obtain ⟨g₁, g₂, g₃, g₄⟩ := a.write_frame w
      exact ⟨h₁.trans g₁, h₂.trans g₂, h₃.trans g₃, h₄.trans g₄⟩

theorem resultCount_write (w : Write) : (a.write w).resultCount = a.resultCount + 1 := by
  cases w with
  | summary s =>
      show (a.summaries ++ [_]).length + a.entries.length =
        a.summaries.length + a.entries.length + 1
      rw [List.length_append, List.length_singleton]
      omega
  | entry e =>
      show a.summaries.length + (a.entries ++ [_]).length =
        a.summaries.length + a.entries.length + 1
      rw [List.length_append, List.length_singleton]
      omega

theorem summaries_writeAll (ws : List Write) :
    (a.writeAll ws).summaries =
      a.summaries ++
        storedFrom (.nth a.first) a.summaries.length (ws.filterMap Write.summary?) := by
  induction ws generalizing a with
  | nil => exact (List.append_nil _).symm
  | cons w ws ih =>
      rw [writeAll_cons, ih, (a.write_frame w).1]
      cases w with
      | summary s => simp [write, Write.summary?, storedFrom]
      | entry e =>
          rw [List.filterMap_cons_none rfl]
          rfl

theorem entries_writeAll (ws : List Write) :
    (a.writeAll ws).entries =
      a.entries ++ storedFrom (.nth a.first) a.entries.length (ws.filterMap Write.entry?) := by
  induction ws generalizing a with
  | nil => exact (List.append_nil _).symm
  | cons w ws ih =>
      rw [writeAll_cons, ih, (a.write_frame w).1]
      cases w with
      | summary s =>
          rw [List.filterMap_cons_none rfl]
          rfl
      | entry e => simp [write, Write.entry?, storedFrom]

/-- The results of an archive are those of another one with writes in a row. -/
def HasResults (b a : Archive) (ws : List Write) : Prop :=
  b.summaries = (a.writeAll ws).summaries ∧ b.entries = (a.writeAll ws).entries

/-- What was done to the records before does not show in the results. -/
theorem hasResults_afterVisits (vs : List (Measurement × Visit)) (ws : List Write) :
    ((a.afterVisits vs).writeAll ws).HasResults a ws := by
  obtain ⟨hfirst, -, -, hsummaries, hentries⟩ := a.afterVisits_frame vs
  constructor
  · rw [summaries_writeAll, summaries_writeAll, hfirst, hsummaries]
  · rw [entries_writeAll, entries_writeAll, hfirst, hentries]

/-! ## Summaries that are there

An entry is stored only if its summary is there. Summaries are never removed, so a summary that was
stored is there for all entries that follow. -/

/-- A summary is stored under the name. -/
def hasSummary (id : SummaryId) : Prop := (a.summary? id).isSome = true

variable {a}

theorem hasSummary_iff {id : SummaryId} : a.hasSummary id ↔ ∃ row ∈ a.summaries, row.id = id := by
  unfold hasSummary summary? lookup
  rw [Option.isSome_map, List.find?_isSome]
  simp

theorem hasSummary_write {id : SummaryId} (h : a.hasSummary id) (w : Write) :
    (a.write w).hasSummary id := by
  obtain ⟨row, hrow, hid⟩ := hasSummary_iff.1 h
  apply hasSummary_iff.2
  cases w with
  | summary s => exact ⟨row, List.mem_append_left _ hrow, hid⟩
  | entry e => exact ⟨row, hrow, hid⟩

theorem hasSummary_write_summary (s : Summary) :
    (a.write (.summary s)).hasSummary (.nth a.first a.summaries.length) :=
  hasSummary_iff.2 ⟨_, List.mem_append_right _ List.mem_cons_self, rfl⟩

end Archive

/-! ## Putting writes into a store with outages

The results are numbered as they are asked for, and an outage refuses some of the numbers. All
writes before the first refused one are done, and none behind it. -/

namespace Outages

variable (o : Outages)

/-- Put results into the store, up to the first that is refused. -/
def put : State → List Write → Except RunError Unit × State
  | s, [] => (.ok (), s)
  | s, w :: ws =>
    match o.result s.archive.resultCount with
    | some e => (.error (.persistence w.what e), s)
    | none => put ⟨s.archive.write w, s.lookups⟩ ws

/-- What is put after a refusal is not put. -/
theorem put_append (s : State) (ws vs : List Write) :
    o.put s (ws ++ vs) =
      match o.put s ws with
      | (.ok _, s') => o.put s' vs
      | (.error e, s') => (.error e, s') := by
  induction ws generalizing s with
  | nil => rfl
  | cons w ws ih =>
      rw [List.cons_append, put, put]
      cases o.result s.archive.resultCount with
      | some e => rfl
      | none => exact ih _

theorem state_put {s s' : State} {ws : List Write} (h : o.put s ws = (.ok (), s')) :
    s' = ⟨s.archive.writeAll ws, s.lookups⟩ := by
  induction ws generalizing s with
  | nil => exact (Prod.mk.inj h).2.symm
  | cons w ws ih =>
      rw [put] at h
      cases hfault : o.result s.archive.resultCount with
      | some e =>
          rw [hfault] at h
          cases (Prod.mk.inj h).1
      | none =>
          rw [hfault] at h
          exact ih h

/-- **If no write is refused, all are done.** -/
theorem put_eq_ok {s : State} {ws : List Write}
    (h : ∀ i < ws.length, o.result (s.archive.resultCount + i) = none) :
    o.put s ws = (.ok (), ⟨s.archive.writeAll ws, s.lookups⟩) := by
  induction ws generalizing s with
  | nil => rfl
  | cons w ws ih =>
      have hfirst : o.result s.archive.resultCount = none := h 0 (Nat.succ_pos _)
      rw [put, hfirst]
      apply ih
      intro i hi
      show o.result ((s.archive.write w).resultCount + i) = none
      rw [Archive.resultCount_write, Nat.add_right_comm]
      exact h (i + 1) (Nat.succ_lt_succ hi)

/-- **If a write is refused, those before it are done**, and no other is. -/
theorem put_eq_error {s : State} {ws : List Write} {n : Nat} {e : StoreError} (hn : n < ws.length)
    (h : ∀ i < n, o.result (s.archive.resultCount + i) = none)
    (hfault : o.result (s.archive.resultCount + n) = some e) :
    o.put s ws =
      (.error (.persistence ws[n].what e), ⟨s.archive.writeAll (ws.take n), s.lookups⟩) := by
  induction ws generalizing s n with
  | nil => exact absurd hn (Nat.not_lt_zero n)
  | cons w ws ih =>
      cases n with
      | zero =>
          have hfirst : o.result s.archive.resultCount = some e := hfault
          rw [put, hfirst]
          rfl
      | succ n =>
          have hfirst : o.result s.archive.resultCount = none := h 0 (Nat.succ_pos _)
          rw [put, hfirst]
          -- With the first write done, the refused one is one place nearer.
          apply ih (Nat.lt_of_succ_lt_succ hn)
          · intro i hi
            show o.result ((s.archive.write w).resultCount + i) = none
            rw [Archive.resultCount_write, Nat.add_right_comm]
            exact h (i + 1) (Nat.succ_lt_succ hi)
          · show o.result ((s.archive.write w).resultCount + n) = some e
            rw [Archive.resultCount_write, Nat.add_right_comm]
            exact hfault

end Outages

/-! ## Attempts that put writes into a store

`Attempt.Puts` says of an attempt that it does nothing but put a list of writes into the store. Such
attempts follow each other as their lists do. -/

/-- The attempt puts results into the store. If all are taken, it gives the answer. -/
def Attempt.Puts {α : Type} (o : Outages) (x : Attempt Outages.State α) (s : Outages.State)
    (ws : List Write) (a : α) : Prop :=
  x.outcome s = ((o.put s ws).1.map fun _ => a, (o.put s ws).2)

namespace Attempt.Puts

variable {α β : Type} {o : Outages} {s : Outages.State}

theorem pure (a : α) : Attempt.Puts o (Pure.pure a) s [] a := rfl

theorem bind {x : Attempt Outages.State α} {f : α → Attempt Outages.State β} {ws vs : List Write}
    {a : α} {b : β} (hx : x.Puts o s ws a)
    (hf : (f a).Puts o ⟨s.archive.writeAll ws, s.lookups⟩ vs b) :
    Attempt.Puts o (x >>= f) s (ws ++ vs) b := by
  unfold Attempt.Puts at *
  rw [Attempt.outcome_bind, hx, o.put_append]
  rcases hput : o.put s ws with ⟨answer, s'⟩
  cases answer with
  -- After a refusal neither the second attempt nor its writes are made.
  | error e => rfl
  | ok u =>
      rw [← o.state_put hput] at hf
      exact hf

theorem bind_nil {x : Attempt Outages.State α} {f : α → Attempt Outages.State β}
    {ws : List Write} {a : α} {b : β} (hx : x.Puts o s ws a) (hf : ∀ s, (f a).Puts o s [] b) :
    Attempt.Puts o (x >>= f) s ws b := by
  have hbind := hx.bind (hf _)
  rwa [List.append_nil] at hbind

theorem map {x : Attempt Outages.State α} {ws : List Write} {a : α} (hx : x.Puts o s ws a)
    (f : α → β) : Attempt.Puts o (f <$> x) s ws (f a) := by
  rw [map_eq_pure_bind]
  exact hx.bind_nil fun _ => pure (f a)

theorem log_bind {x : Attempt Outages.State α} {ws : List Write} {a : α} (hx : x.Puts o s ws a)
    (c : Option LogContext) (e : Event) :
    Attempt.Puts o (Attempt.log c e >>= fun _ => x) s ws a := by
  unfold Attempt.Puts at *
  rw [Attempt.outcome_bind_ok (Attempt.outcome_log c e s)]
  exact hx

end Attempt.Puts

end NetAudit
