import Mathlib.Data.List.Induction
import Mathlib.Logic.Function.Basic
import NetAudit.Proofs.Run.Repeated
import NetAudit.Proofs.Run.Steps
import NetAudit.Proofs.Store.Cleared

/-!
# Runs that take turns

Several runs work on one archive. A schedule says whose turn it is, and with each turn a run takes
its next step (`Together.turn`). The results that are stored are noted with the run that stored
them; what a single run sees of all this is its `Run.View`.

A run whose turns come in a row does what it does alone (`Together.after_alone`), so runs that are
made one after the other are a schedule among others (`Together.exists_oneByOne`).
-/

namespace NetAudit

/-! ## Results that are added

Nothing is ever removed from the tables of results. So what a run adds is what stands behind the
rows of before (`Archive.since`), and each row is noted with the run that added it. -/

/-- What stands in the tables of the second archive behind those of the first. -/
def Archive.since (a b : Archive) : Batch :=
  ⟨b.summaries.drop a.summaries.length, b.entries.drop a.entries.length⟩

/-- The second archive is the first one, with some tasks cleared and some results added. -/
structure Archive.GrowsTo (a b : Archive) : Prop where
  clears : a.ClearsTo b
  summaries : a.summaries <+: b.summaries
  entries : a.entries <+: b.entries

namespace Archive.GrowsTo

variable {a b c : Archive}

theorem refl (a : Archive) : a.GrowsTo a := ⟨.refl a, List.prefix_rfl, List.prefix_rfl⟩

theorem trans (hab : a.GrowsTo b) (hbc : b.GrowsTo c) : a.GrowsTo c :=
  ⟨hab.clears.trans hbc.clears, hab.summaries.trans hbc.summaries, hab.entries.trans hbc.entries⟩

theorem write (a : Archive) (w : Write) : a.GrowsTo (a.write w) := by
  obtain ⟨-, hmeasurements, hdevices, htasks⟩ := a.write_frame w
  refine ⟨.of_measurements_eq hdevices htasks hmeasurements, ?_, ?_⟩
  all_goals cases w <;> simp [Archive.write]

/-- A repair clears a task. -/
theorem clear {m n : Measurement} (hm : a.measurements.find? n.id = some m)
    (hsame : m.SameButTask n) : a.GrowsTo (a.insertMeasurement n.withoutTask) :=
  ⟨.clear hm hsame, List.prefix_rfl, List.prefix_rfl⟩

theorem summaries_since (h : a.GrowsTo b) :
    b.summaries = a.summaries ++ (a.since b).summaries :=
  (List.prefix_iff_eq_append.1 h.summaries).symm

theorem entries_since (h : a.GrowsTo b) : b.entries = a.entries ++ (a.since b).entries :=
  (List.prefix_iff_eq_append.1 h.entries).symm

end Archive.GrowsTo

/-- What the run `i` has noted. -/
def ownRows {ι α : Type} [DecidableEq ι] (rows : List (ι × α)) (i : ι) : List α :=
  (rows.filter (·.1 = i)).map (·.2)

section OwnRows

variable {ι α : Type} [DecidableEq ι] {i j : ι}

theorem ownRows_note (rows : List (ι × α)) (i : ι) (new : List α) :
    ownRows (rows ++ new.map (i, ·)) i = ownRows rows i ++ new := by
  simp [ownRows, List.filter_append, List.filter_map, Function.comp_def]

theorem ownRows_note_of_ne (h : j ≠ i) (rows : List (ι × α)) (new : List α) :
    ownRows (rows ++ new.map (i, ·)) j = ownRows rows j := by
  simp [ownRows, List.filter_append, List.filter_map, Function.comp_def, h.symm]

/-- If no other run has noted anything, that is all there is. -/
theorem ownRows_of_forall {rows : List (ι × α)} (h : ∀ row ∈ rows, row.1 = i) :
    ownRows rows i = rows.map (·.2) := by
  unfold ownRows
  rw [List.filter_eq_self.2 fun row hrow => decide_eq_true (h row hrow)]

omit [DecidableEq ι] in
/-- Only who has had a turn has noted anything. -/
theorem mem_turns_note {rows : List (ι × α)} {turns : List ι} (h : ∀ row ∈ rows, row.1 ∈ turns)
    (i : ι) (new : List α) : ∀ row ∈ rows ++ new.map (i, ·), row.1 ∈ turns ++ [i] := by
  intro row hrow
  rcases List.mem_append.1 hrow with hrow | hrow
  · exact List.mem_append_left _ (h row hrow)
  · obtain ⟨x, -, rfl⟩ := List.mem_map.1 hrow
    exact List.mem_append_right _ (List.mem_singleton_self i)

end OwnRows

namespace Run

/-! ## One run among others

A run sees the archive, its own results and its own progress. Steps that come in a row are the whole
run, once there are enough of them. -/

/-- What a run sees: the archive, the results that it has stored there, and how far it has come. -/
structure View where
  archive : Archive
  batch : Batch
  progress : Progress

/-- The next step of a run that sees this. -/
def take (r : Run) (unscheduled : List Window) (v : View) : View :=
  let d := r.step Archive.store unscheduled v.progress v.archive
  let new := v.archive.since d.state
  ⟨d.state, ⟨v.batch.summaries ++ new.summaries, v.batch.entries ++ new.entries⟩, d.value⟩

variable {σ : Type} (store : Store σ) (r : Run) (unscheduled : List Window)

theorem proceed_finished (n : Nat) (answer : Except RunError Report) :
    r.proceed store unscheduled n (.finished answer) = pure (.finished answer) := by
  induction n with
  | zero => rfl
  | succ n ih =>
      unfold proceed
      exact (pure_bind _ _).trans ih

theorem proceed_add (n k : Nat) (p : Progress) :
    r.proceed store unscheduled (n + k) p =
      r.proceed store unscheduled n p >>= r.proceed store unscheduled k := by
  induction n generalizing p with
  | zero => rw [Nat.zero_add]; rfl
  | succ n ih =>
      rw [Nat.succ_add, proceed, proceed, bind_assoc]
      exact bind_congr fun p => ih p

/-- **A run that is over is over for good**: it has given its answer. -/
theorem proceed_eq_execute {n : Nat} {s : σ} {answer : Except RunError Report}
    (h : (r.proceed store unscheduled n .start s).value = .finished answer) :
    r.proceed store unscheduled n .start s =
      let d := (r.execute store unscheduled).perform s
      ⟨.finished d.value, d.state, d.log⟩ := by
  obtain ⟨k, hk⟩ := r.exists_proceed_eq_execute store unscheduled s
  rw [← hk]
  rcases Nat.le_total n k with hle | hle
  · obtain ⟨j, rfl⟩ := Nat.exists_eq_add_of_le hle
    rw [proceed_add, Action.bind_apply, h, proceed_finished]
    generalize r.proceed store unscheduled n .start s = d at h ⊢
    obtain ⟨p, s', log⟩ := d
    obtain rfl : p = .finished answer := h
    simp
  · obtain ⟨j, rfl⟩ := Nat.exists_eq_add_of_le hle
    rw [proceed_add, Action.bind_apply, hk, proceed_finished]
    simp

end Run

/-! ## Turns

A turn changes the progress of one run, and the archive that all of them share. -/

/-- Runs on one archive, and the results that each of them has stored. -/
structure Together (ι : Type) where
  archive : Archive
  progress : ι → Run.Progress
  summaries : List (ι × Stored SummaryId Summary)
  entries : List (ι × Stored EntryId Entry)

namespace Together

variable {ι : Type} [DecidableEq ι]

/-- No run has begun. -/
def start (a : Archive) : Together ι := ⟨a, fun _ => .start, [], []⟩

/-- What the run `i` has stored. -/
def batch (s : Together ι) (i : ι) : Batch := ⟨ownRows s.summaries i, ownRows s.entries i⟩

def view (s : Together ι) (i : ι) : Run.View := ⟨s.archive, s.batch i, s.progress i⟩

variable (runs : ι → Run) (unscheduled : ι → List Window)

/-- The run `i` takes its next step. -/
def turn (s : Together ι) (i : ι) : Together ι :=
  let d := (runs i).step Archive.store (unscheduled i) (s.progress i) s.archive
  let new := s.archive.since d.state
  ⟨d.state, Function.update s.progress i d.value, s.summaries ++ new.summaries.map (i, ·),
    s.entries ++ new.entries.map (i, ·)⟩

/-- All turns of a schedule, beginning with an archive. -/
def after (a : Archive) (schedule : List ι) : Together ι :=
  schedule.foldl (turn runs unscheduled) (start a)

variable {runs unscheduled} {i j : ι}

/-- In its own turn a run takes a step of its own. -/
theorem view_turn_self (s : Together ι) (i : ι) :
    (s.turn runs unscheduled i).view i = (runs i).take (unscheduled i) (s.view i) := by
  simp [view, turn, batch, Run.take, ownRows_note]

/-- In the turn of another run, a run sees nothing change but the archive. -/
theorem view_turn_of_ne (h : j ≠ i) (s : Together ι) :
    (s.turn runs unscheduled i).view j =
      { s.view j with archive := (s.turn runs unscheduled i).archive } := by
  simp [view, turn, batch, ownRows_note_of_ne h, Function.update_of_ne h]

theorem after_concat (a : Archive) (schedule : List ι) (i : ι) :
    after runs unscheduled a (schedule ++ [i]) =
      (after runs unscheduled a schedule).turn runs unscheduled i := List.foldl_concat ..

variable (runs unscheduled) in
/-- What a run does in several turns in a row. -/
theorem foldl_turn_replicate (n : Nat) (s : Together ι) (i : ι) :
    let t := (List.replicate n i).foldl (turn runs unscheduled) s
    let d := (runs i).proceed Archive.store (unscheduled i) n (s.progress i) s.archive
    t.archive = d.state ∧ t.progress = Function.update s.progress i d.value := by
  induction n generalizing s with
  | zero => exact ⟨rfl, (Function.update_eq_self i s.progress).symm⟩
  | succ n ih =>
      obtain ⟨harchive, hprogress⟩ := ih (s.turn runs unscheduled i)
      simp only [turn, Function.update_self, Function.update_idem] at harchive hprogress
      exact ⟨harchive, hprogress⟩

/-- **A run that has all turns for itself** does what it does alone. -/
theorem after_alone {a : Archive} {n : Nat} {answer : Except RunError Report}
    (h : (after runs unscheduled a (List.replicate n i)).progress i = .finished answer) :
    let alone := ((runs i).execute Archive.store (unscheduled i)).perform a
    answer = alone.value ∧ (after runs unscheduled a (List.replicate n i)).archive = alone.state
    := by
  obtain ⟨harchive, hprogress⟩ :=
    foldl_turn_replicate runs unscheduled n (start a) i
  have hover :
      ((runs i).proceed Archive.store (unscheduled i) n .start a).value = .finished answer := by
    rw [← h]
    exact ((congrFun hprogress i).trans (Function.update_self ..)).symm
  have hexecute := (runs i).proceed_eq_execute Archive.store (unscheduled i) hover
  rw [hexecute] at hover
  refine ⟨(Run.Progress.finished.inj hover).symm, harchive.trans ?_⟩
  exact congrArg Done.state hexecute

variable (runs unscheduled) in
/-- A run that has all turns for itself is over after enough of them. -/
theorem exists_after_alone_over (a : Archive) (i : ι) :
    ∃ n, ∀ k, n ≤ k →
      ∃ answer, (after runs unscheduled a (List.replicate k i)).progress i = .finished answer := by
  obtain ⟨n, hn⟩ := (runs i).exists_proceed_eq_execute Archive.store (unscheduled i) a
  refine ⟨n, fun k hk => ?_⟩
  obtain ⟨j, rfl⟩ := Nat.exists_eq_add_of_le hk
  obtain ⟨-, hprogress⟩ :=
    foldl_turn_replicate runs unscheduled (n + j) (start a) i
  refine ⟨(((runs i).execute Archive.store (unscheduled i)).perform a).value,
    (congrFun hprogress i).trans ((Function.update_self ..).trans ?_)⟩
  show ((runs i).proceed Archive.store (unscheduled i) (n + j) .start a).value = _
  rw [Run.proceed_add, Action.bind_apply, hn, Run.proceed_finished]
  rfl

/-! ## One after the other

To make runs one after the other is a schedule as well: each run has all its turns in a row. -/

/-- The archive that runs leave which are made one after the other. -/
def oneByOne (runs : ι → Run) (unscheduled : ι → List Window) (a : Archive) (order : List ι) :
    Archive :=
  order.foldl (fun b i => (((runs i).execute Archive.store (unscheduled i)).perform b).state) a

/-- **Runs that are made one after the other** take their turns in a certain schedule. -/
theorem exists_oneByOne (runs : ι → Run) (unscheduled : ι → List Window) (a : Archive)
    {order : List ι} (hnodup : order.Nodup) :
    ∃ schedule, (after runs unscheduled a schedule).archive = oneByOne runs unscheduled a order ∧
      (∀ i ∈ order, ∃ answer, (after runs unscheduled a schedule).progress i = .finished answer) ∧
      ∀ i ∉ order, (after runs unscheduled a schedule).progress i = .start := by
  induction order using List.reverseRecOn with
  | nil => exact ⟨[], rfl, by simp, fun i _ => rfl⟩
  | append_singleton order j ih =>
      obtain ⟨hnodup, -, hdisjoint⟩ := List.nodup_append.1 hnodup
      obtain ⟨schedule, harchive, hover, hstart⟩ := ih hnodup
      have hj : j ∉ order := fun h => hdisjoint j h j (List.mem_singleton_self j) rfl
      set s := after runs unscheduled a schedule with hs
      -- The last run has not begun yet, and is given as many turns as it takes.
      obtain ⟨n, hn⟩ :=
        (runs j).exists_proceed_eq_execute Archive.store (unscheduled j) s.archive
      have hturns : after runs unscheduled a (schedule ++ List.replicate n j) =
          (List.replicate n j).foldl (turn runs unscheduled) s := List.foldl_append
      obtain ⟨harchive', hprogress⟩ :=
        foldl_turn_replicate runs unscheduled n s j
      rw [hstart j hj, hn] at harchive' hprogress
      refine ⟨schedule ++ List.replicate n j, ?_, fun i hi => ?_, fun i hi => ?_⟩
      · rw [hturns, harchive', harchive, oneByOne, oneByOne, List.foldl_concat]
      · rw [hturns, hprogress]
        by_cases hij : i = j
        · rw [hij, Function.update_self]
          exact ⟨_, rfl⟩
        · rw [Function.update_of_ne hij]
          exact hover i ((List.mem_append.1 hi).resolve_right fun h =>
            hij (List.mem_singleton.1 h))
      · rw [List.mem_append, not_or, List.mem_singleton] at hi
        rw [hturns, hprogress, Function.update_of_ne hi.2]
        exact hstart i hi.1

end Together

end NetAudit
