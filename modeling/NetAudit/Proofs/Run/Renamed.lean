import NetAudit.Proofs.Report
import NetAudit.Proofs.Run.Presented

/-!
# Archives that differ in the names of results

The names of summaries and entries are counted from a number that an archive is given at the
beginning. Two archives that hold the same otherwise are told apart by nothing else: a run on each
of them reports the same but for names, and adds the same results under other names
(`Archive.SameButNames.leave`).

Numbers are cut off at 128 bits, so that two summaries can come by one name after all. Then they do
in both archives (`Renames.eq_iff`).
-/

namespace NetAudit

/-! ## Reports without the names of summaries

The text of a report does not show the names of summaries, so reports without them have the same
text. -/

/-- The report without the names of summaries. -/
def Report.nameless (rep : Report) : Report :=
  { rep with kinds := rep.kinds.mapValues KindReport.anonymous }

namespace Report

variable {rep rep' : Report}

theorem nameless_eq (h : rep'.anonymous = rep.anonymous) (hrun : rep'.run = rep.run)
    (hrepaired : rep'.repaired = rep.repaired) : rep'.nameless = rep.nameless := by
  have hkeeps : ∀ x : Report,
      x.nameless = { x.anonymous with run := x.run, repaired := x.repaired } := fun _ => rfl
  rw [hkeeps, hkeeps, h, hrun, hrepaired]

/-- The names of summaries are not to be seen in the text of a report. -/
theorem text_nameless (rep : Report) : rep.nameless.text = rep.text := by
  have hheader : rep.nameless.header = rep.header := by
    unfold header recordTotal errorTotal nameless
    simp only [OrderedMap.values_mapValues, List.map_map]
    rfl
  have hlines : rep.nameless.textLines = rep.textLines := by
    unfold textLines
    rw [hheader]
    show rep.header ++ (rep.kinds.toList.map _).flatMap _ = _
    rw [List.flatMap_map]
    rfl
  unfold text
  rw [hlines]

theorem text_congr (h : rep'.nameless = rep.nameless) : rep'.text = rep.text := by
  rw [← text_nameless rep', h, text_nameless]

end Report

/-! ## Results in a row

Results that are the same but for names stay so when further results of this kind are put behind
them. -/

namespace Batch

/-- The results of one batch and then those of another. -/
def append (x y : Batch) : Batch := ⟨x.summaries ++ y.summaries, x.entries ++ y.entries⟩

variable {x x' y y' : Batch} {id id' : SummaryId}

theorem Pairs.append_left (h : x.Pairs y id id') (hlength : x.summaries.length = y.summaries.length)
    (x' y' : Batch) : (x.append x').Pairs (y.append y') id id' := by
  obtain ⟨p, hp, hids⟩ := h
  refine ⟨p, ?_, hids⟩
  rw [append, append, List.zip_append hlength]
  exact List.mem_append_left _ hp

theorem Pairs.append_right (h : x'.Pairs y' id id')
    (hlength : x.summaries.length = y.summaries.length) :
    (x.append x').Pairs (y.append y') id id' := by
  obtain ⟨p, hp, hids⟩ := h
  refine ⟨p, ?_, hids⟩
  rw [append, append, List.zip_append hlength]
  exact List.mem_append_right _ hp

theorem SameButNames.append (h : x.SameButNames y) (h' : x'.SameButNames y') :
    (x.append x').SameButNames (y.append y') where
  summaries := by
    rw [Batch.append, Batch.append, List.map_append, List.map_append, h.summaries, h'.summaries]
  entries := by
    have hlength := h.length_eq
    apply List.rel_append
    · exact h.entries.imp fun _ _ hsame =>
        ⟨hsame.1, hsame.2.1, hsame.2.2.append_left hlength x' y'⟩
    · exact h'.entries.imp fun _ _ hsame =>
        ⟨hsame.1, hsame.2.1, hsame.2.2.append_right hlength⟩

end Batch

/-! ## Numbers

A name is a number that is counted from the first number of the archive. Which of these names are
equal does not depend on where the counting begins. -/

/-- The names are those of one summary, counted from `first` and from `first'`. -/
def Renames (first first' : Nat) (id id' : SummaryId) : Prop :=
  ∃ n, id = .nth first n ∧ id' = .nth first' n

/-- Two numbers make the same name just if they agree in the digits that a name keeps, whatever the
first number is. -/
theorem SummaryId.nth_eq_nth_iff (first i j : Nat) :
    nth first i = nth first j ↔ BitVec.ofNat 128 (2 * i) = BitVec.ofNat 128 (2 * j) := by
  unfold nth Uuid.ofNat
  rw [SummaryId.mk.injEq, Uuid.mk.injEq, BitVec.ofNat_add, BitVec.ofNat_add, BitVec.add_right_inj]

/-- **The names that summaries share in one archive they share in the other.** -/
theorem Renames.eq_iff {first first' : Nat} {id id' jd jd' : SummaryId}
    (hi : Renames first first' id id') (hj : Renames first first' jd jd') :
    id = jd ↔ id' = jd' := by
  obtain ⟨i, rfl, rfl⟩ := hi
  obtain ⟨j, rfl, rfl⟩ := hj
  rw [SummaryId.nth_eq_nth_iff, SummaryId.nth_eq_nth_iff]

theorem storedFrom_append {ι α : Type} (name : Nat → ι) (n : Nat) (xs ys : List α) :
    storedFrom name n (xs ++ ys) =
      storedFrom name n xs ++ storedFrom name (n + xs.length) ys := by
  induction xs generalizing n with
  | nil => rfl
  | cons x xs ih =>
      rw [List.cons_append, storedFrom, storedFrom, ih, List.cons_append, List.length_cons,
        Nat.add_right_comm, Nat.add_assoc]

/-- Values that are stored from two first numbers on are the same under other names. -/
theorem forall₂_storedFrom {α : Type} (first first' n : Nat) (xs : List α) :
    List.Forall₂ (fun x y => Renames first first' x.id y.id ∧ y.value = x.value)
      (storedFrom (SummaryId.nth first) n xs) (storedFrom (SummaryId.nth first') n xs) := by
  induction xs generalizing n with
  | nil => exact .nil
  | cons x xs ih => exact .cons ⟨⟨n, rfl, rfl⟩, rfl⟩ (ih (n + 1))

/-- The summaries are numbered in the order in which they came. -/
def Archive.Numbered (a : Archive) : Prop :=
  a.summaries = storedFrom (.nth a.first) 0 (a.summaries.map (·.value))

theorem Archive.Numbered.leave {a : Archive} (h : a.Numbered) (r : Run) : (r.leave a).Numbered := by
  obtain ⟨hsummaries, -⟩ := a.hasResults_afterVisits (r.visits a) (r.writes a)
  have hleave : (r.leave a).summaries = a.summaries ++
      storedFrom (.nth a.first) a.summaries.length ((r.writes a).filterMap Write.summary?) :=
    hsummaries.trans (a.summaries_writeAll _)
  unfold Numbered
  rw [(r.leave_frame a).1, hleave, List.map_append, map_value_storedFrom, storedFrom_append, ← h,
    List.length_map, Nat.zero_add]

/-! ## Archives

Two archives that differ in their first numbers only go on to differ in nothing else, whatever runs
are made on them. -/

/-- The results that are stored. -/
def Archive.stored (a : Archive) : Batch := ⟨a.summaries, a.entries⟩

/-- The archives hold the same, but for the numbers from which they name their results. -/
structure Archive.SameButNames (a b : Archive) : Prop where
  measurements : b.measurements = a.measurements
  devices : b.devices = a.devices
  tasks : b.tasks = a.tasks
  results : a.stored.SameButNames b.stored
  numbered : a.Numbered ∧ b.Numbered

theorem Run.stored_leave (r : Run) (a : Archive) :
    (r.leave a).stored = a.stored.append (r.batch a) := by
  have hfiled := r.filed_leave a
  unfold Archive.stored Batch.append
  rw [hfiled.summaries, hfiled.entries]
  rfl

namespace Archive.SameButNames

variable {a b : Archive} (h : a.SameButNames b) (r : Run)

include h

theorem sameRecords : r.SameRecords r a b := ⟨rfl, rfl, h.measurements, h.devices, h.tasks⟩

theorem tally_eq : r.tally b = r.tally a := by
  unfold Run.tally Run.visits
  rw [(h.sameRecords r).records_eq, Outages.visits_congr _ h.devices h.tasks]

/-- **A run on the one reports what it reports on the other.** -/
theorem nameless_reportOn (unscheduled : List Window) :
    (r.reportOn b unscheduled).nameless = (r.reportOn a unscheduled).nameless := by
  have htally := h.tally_eq r
  have hfilings : (r.filings b).map Filing.anonymous = (r.filings a).map Filing.anonymous :=
    Tally.map_anonymous_filings (congrArg Tally.accounts htally) b a
  have hanonymous :
      (r.reportOn b unscheduled).anonymous = (r.reportOn a unscheduled).anonymous := by
    rw [r.anonymous_reportOn, r.anonymous_reportOn, hfilings, htally]
  exact Report.nameless_eq hanonymous rfl (congrArg Tally.repaired htally)

/-- A run stores on the one archive what it stores on the other, under other names. -/
theorem batch_sameButNames : (r.batch a).SameButNames (r.batch b) :=
  Run.batch_sameButNames (Run.forall₂_filings (h.sameRecords r))

/-- **A run keeps archives the same but for the names of results.** -/
theorem leave : (r.leave a).SameButNames (r.leave b) where
  measurements := (h.sameRecords r).measurements_leave
  devices := by
    rw [(r.leave_frame a).2.1, (r.leave_frame b).2.1, h.devices]
  tasks := by
    rw [(r.leave_frame a).2.2, (r.leave_frame b).2.2, h.tasks]
  results := by
    rw [r.stored_leave, r.stored_leave]
    exact h.results.append (h.batch_sameButNames r)
  numbered := ⟨h.numbered.1.leave r, h.numbered.2.leave r⟩

/-- Summaries in one place are renamed. -/
theorem forall₂_summaries :
    List.Forall₂ (fun x y => Renames a.first b.first x.id y.id ∧ y.value = x.value) a.summaries
      b.summaries := by
  have hvalues : b.summaries.map (·.value) = a.summaries.map (·.value) := h.results.summaries
  rw [h.numbered.1, h.numbered.2, hvalues]
  exact forall₂_storedFrom a.first b.first 0 _

/-- Summaries that entries in one place point to are renamed. -/
theorem renames_of_pairs {id id' : SummaryId} (hids : a.stored.Pairs b.stored id id') :
    Renames a.first b.first id id' := by
  obtain ⟨p, hp, rfl, rfl⟩ := hids
  exact ((List.forall₂_iff_zip.1 h.forall₂_summaries).2 hp).1

end Archive.SameButNames

end NetAudit
