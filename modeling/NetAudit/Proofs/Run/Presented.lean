import NetAudit.Proofs.Run.Alike
import NetAudit.Proofs.Run.Repeated
import NetAudit.Proofs.Run.Shown
import NetAudit.Proofs.Run.Views

/-!
# Settings decide what is shown, and nothing else

A run under other settings stores the same results and reports the same, but for names and details.
On an archive this holds of the size of pages too, as a run is about the same records whatever pages
they come in. The details that are shown are told apart in `KindReport.Shows`, which leaves the two
settings their documented meaning: all scored records, the invalid ones only, or none.
-/

namespace NetAudit

open Calendar (Instant)

/-! ## Tallies under other settings

Settings reach the details of an account and nothing else in it. So two runs over the same window
count the same records alike (`Run.SameRecords`), each under its own settings. -/

section Tallies

variable {r r' : Run}

theorem Tally.plain_visit {t u : Tally} (hwindow : r'.window = r.window) (h : t.plain = u.plain)
    (m : Measurement) (v : Visit) : (t.visit r m v).plain = (u.visit r' m v).plain := by
  rcases v with _ | ⟨device, _ | _⟩ <;> simp only [visit, hwindow]
  · exact plain_skip h
  · exact plain_score h _ _ _ device m
  · exact plain_score (plain_repair h) _ _ _ device m

theorem Tally.plain_ofVisits (hwindow : r'.window = r.window) (vs : List (Measurement × Visit)) :
    (ofVisits r vs).plain = (ofVisits r' vs).plain := by
  have hfold : ∀ t u : Tally, t.plain = u.plain →
      (vs.foldl (fun t p => t.visit r p.1 p.2) t).plain =
        (vs.foldl (fun t p => t.visit r' p.1 p.2) u).plain := by
    induction vs with
    | nil => exact fun _ _ h => h
    | cons p vs ih => exact fun _ _ h => ih _ _ (plain_visit hwindow h p.1 p.2)
  exact hfold .initial .initial rfl

/-- The runs are about the same window, and the archives hold the same but for results. -/
structure Run.SameRecords (r r' : Run) (a b : Archive) : Prop where
  window : r'.window = r.window
  limit : r'.limit = r.limit
  measurements : b.measurements = a.measurements
  devices : b.devices = a.devices
  tasks : b.tasks = a.tasks

namespace Run.SameRecords

variable {a b : Archive} (h : r.SameRecords r' a b)

include h

theorem records_eq : r'.records b = r.records a := by
  unfold records
  rw [h.window, h.limit, h.measurements]

theorem plain_tally : (r.tally a).plain = (r'.tally b).plain := by
  unfold tally visits
  rw [h.records_eq, Outages.visits_congr _ h.devices h.tasks]
  exact Tally.plain_ofVisits h.window _

theorem measurements_leave : (r'.leave b).measurements = (r.leave a).measurements := by
  have hsettle : r'.settle b = r.settle a := by
    funext m
    unfold settle
    rw [h.records_eq, Archive.mends_congr h.devices h.tasks]
  rw [r.measurements_leave, r'.measurements_leave, hsettle, h.measurements]

end Run.SameRecords

end Tallies

/-! ## Results under other names

The filings of two such runs match one by one, and with them the rows and the entries that they put
into the tables. -/

/-- Two filings of the same results, which may be named and shown differently. -/
structure Filing.Matches (f g : Filing) : Prop where
  kind : f.kind = g.kind
  account : f.account.plain = g.account.plain
  named : f.summary.isSome = g.summary.isSome

theorem forall₂_filingsFrom {as bs : List (Kind × Account)}
    (h : List.Forall₂ (fun e f : Kind × Account => e.1 = f.1 ∧ e.2.plain = f.2.plain) as bs)
    (first first' n n' : Nat) :
    List.Forall₂ Filing.Matches (filingsFrom first n as) (filingsFrom first' n' bs) := by
  induction h generalizing n n' with
  | nil => exact .nil
  | cons hfirst _ ih =>
      obtain ⟨hkind, hplain⟩ := hfirst
      refine .cons ⟨hkind, hplain, ?_⟩ (ih _ _)
      unfold Account.filing
      rw [(Account.plain_eq_iff.1 hplain).1]
      split <;> rfl

namespace Filing.Matches

variable {f g : Filing} {fs gs : List Filing}

theorem report_eq (h : f.Matches g) :
    (f.report.1, f.report.2.plain.anonymous) = (g.report.1, g.report.2.plain.anonymous) := by
  have hname : f.summary.map (fun _ => SummaryId.blank) = g.summary.map fun _ => .blank := by
    have hnamed := h.named
    cases hf : f.summary <;> cases hg : g.summary <;> rw [hf, hg] at hnamed <;> simp_all
  unfold report Run.kindReport KindReport.plain KindReport.anonymous
  simp only [h.kind, (Account.plain_eq_iff.1 h.account).1, hname]

theorem values_rows (h : f.Matches g) : f.rows.map (·.value) = g.rows.map (·.value) := by
  have hnamed := h.named
  unfold rows
  rw [(Account.plain_eq_iff.1 h.account).1]
  cases hf : f.summary <;> cases hg : g.summary <;> rw [hf, hg] at hnamed <;> simp_all

theorem map_values_rows (h : List.Forall₂ Filing.Matches fs gs) :
    (fs.flatMap rows).map (·.value) = (gs.flatMap rows).map (·.value) := by
  induction h with
  | nil => rfl
  | cons hfirst _ ih =>
      rw [List.flatMap_cons, List.flatMap_cons, List.map_append, List.map_append,
        hfirst.values_rows, ih]

/-- Matching filings have their summaries in the same place. -/
theorem exists_mem_zip_rows (h : List.Forall₂ Filing.Matches fs gs) {id id' : SummaryId}
    (hmem : (f, g) ∈ fs.zip gs) (hid : f.summary = some id) (hid' : g.summary = some id') :
    ∃ p ∈ (fs.flatMap rows).zip (gs.flatMap rows), p.1.id = id ∧ p.2.id = id' := by
  induction h with
  | nil => exact absurd hmem List.not_mem_nil
  | @cons f₁ g₁ fs gs hfirst _ ih =>
      have hlength : f₁.rows.length = g₁.rows.length := by
        simpa using congrArg List.length hfirst.values_rows
      rw [List.flatMap_cons, List.flatMap_cons, List.zip_append hlength]
      rcases List.mem_cons.1 hmem with heq | hmem
      · obtain ⟨rfl, rfl⟩ := Prod.mk.inj heq
        refine ⟨(⟨id, f.account.summary⟩, ⟨id', g.account.summary⟩), ?_, rfl, rfl⟩
        apply List.mem_append_left
        unfold rows
        rw [hid, hid']
        exact List.mem_singleton_self _
      · obtain ⟨p, hp, hids⟩ := ih hmem
        exact ⟨p, List.mem_append_right _ hp, hids⟩

/-- Filings that match have the same entries, under the summaries that are in the same place. -/
theorem forall₂_entries {R : SummaryId → SummaryId → Prop}
    (h : List.Forall₂ Filing.Matches fs gs)
    (hpairs : ∀ f g id id', (f, g) ∈ fs.zip gs → f.summary = some id → g.summary = some id' →
      R id id') :
    List.Forall₂ (fun x y : Entry => y.measurement = x.measurement ∧ y.errors = x.errors ∧
      R x.summary y.summary) (fs.flatMap entries) (gs.flatMap entries) := by
  induction h with
  | nil => exact .nil
  | @cons f g fs gs hfirst _ ih =>
      rw [List.flatMap_cons, List.flatMap_cons]
      refine List.rel_append ?_ (ih fun f g id id' hmem => hpairs f g id id' (.tail _ hmem))
      have hhere := hpairs f g
      -- Either both filings have a summary or neither has, and only those with one have entries.
      have hnamed := hfirst.named
      unfold entries
      rw [(Account.plain_eq_iff.1 hfirst.account).2]
      cases hf : f.summary <;> cases hg : g.summary <;> rw [hf, hg] at hnamed
      case none.none => exact .nil
      case some.some id id' =>
          rw [Option.toList_some, Option.toList_some, List.flatMap_singleton,
            List.flatMap_singleton, List.forall₂_map_left_iff, List.forall₂_map_right_iff,
            List.forall₂_same]
          exact fun p _ => ⟨rfl, rfl, hhere id id' (.head _) hf hg⟩
      all_goals cases hnamed

end Filing.Matches

namespace Run

variable {r r' : Run} {a b : Archive}

theorem forall₂_filings (h : r.SameRecords r' a b) :
    List.Forall₂ Filing.Matches (r.filings a) (r'.filings b) :=
  forall₂_filingsFrom (Tally.forall₂_of_plain (Tally.plain_eq_iff.1 h.plain_tally).1) _ _ _ _

section Matches

variable (h : List.Forall₂ Filing.Matches (r.filings a) (r'.filings b))

include h

/-- **The same results are stored**, under other names. -/
theorem batch_sameButNames : (r.batch a).SameButNames (r'.batch b) where
  summaries := (Filing.Matches.map_values_rows h).symm
  entries := by
    have hentries := Filing.Matches.forall₂_entries (R := (r.batch a).Pairs (r'.batch b)) h
      fun f g id id' hmem hid hid' => Filing.Matches.exists_mem_zip_rows h hmem hid hid'
    have hvalues : ∀ (s : Run) (c : Archive),
        (s.batch c).entries.map (·.value) = (s.filings c).flatMap Filing.entries :=
      fun s c => map_value_storedFrom _ _ _
    rw [← hvalues, ← hvalues, List.forall₂_map_left_iff, List.forall₂_map_right_iff] at hentries
    exact hentries

theorem kinds_reportOn (unscheduled : List Window) :
    (r.reportOn a unscheduled).plain.anonymous.kinds =
      (r'.reportOn b unscheduled).plain.anonymous.kinds := by
  show ((OrderedMap.ofList ((r.filings a).map Filing.report)).mapValues _).mapValues _ =
    ((OrderedMap.ofList ((r'.filings b).map Filing.report)).mapValues _).mapValues _
  simp only [OrderedMap.mapValues_ofList, List.map_map]
  apply congrArg OrderedMap.ofList
  rw [← List.forall₂_eq_eq_eq, List.forall₂_map_left_iff, List.forall₂_map_right_iff]
  exact h.imp fun _ _ hmatches => hmatches.report_eq

end Matches

/-- **The same is reported**, but for names and details. -/
theorem reportOn_alike (h : r.SameRecords r' a b) (unscheduled : List Window) :
    (r'.reportOn b unscheduled).plain.anonymous = (r.reportOn a unscheduled).plain.anonymous ∧
      (r'.reportOn b unscheduled).repaired = (r.reportOn a unscheduled).repaired := by
  obtain ⟨haccounts, hskipped, hrepaired⟩ := Tally.plain_eq_iff.1 h.plain_tally
  refine ⟨?_, hrepaired.symm⟩
  rw [Report.mk.injEq]
  exact ⟨rfl, congrArg Window.start h.window, congrArg Window.stop h.window,
    (kinds_reportOn (forall₂_filings h) unscheduled).symm, hskipped.symm, rfl,
    (Tally.entryCount_of_plain haccounts).symm, rfl⟩

end Run

/-! ## What is shown

The details of a kind are those of its records that the settings let through, in the order of the
records. The three ways in which settings may be set are three cases of this. -/

theorem flatMap_eq_of_filter {α β : Type} {p : α → Bool} {f : α → List β} {as : List α}
    (h : ∀ a ∈ as, p a = false → f a = []) : as.flatMap f = (as.filter p).flatMap f := by
  induction as with
  | nil => rfl
  | cons a as ih =>
      obtain ⟨hfirst, hrest⟩ := List.forall_mem_cons.1 h
      rw [List.flatMap_cons, ih hrest]
      cases hp : p a with
      | true => rw [List.filter_cons_of_pos hp, List.flatMap_cons]
      | false =>
          rw [List.filter_cons_of_neg (by simp [hp]), hfirst hp, List.nil_append]

/-- The text is the detail of a record that was scored. -/
def Archive.IsDetail (a : Archive) (m : Measurement) (text : String) : Prop :=
  ∃ device v, a.devices.find? m.device = some device ∧ Validator.of? m = .ok v ∧
    text = detailText device m v v.score

/-- The details of a kind are those of its records `ms`, as the settings have it. -/
structure KindReport.Shows (x : KindReport) (c : Config) (a : Archive) (ms : List Measurement) :
    Prop where
  inOrder : ms.Pairwise fun m n => Archive.comesFirst m n = true
  all : x.isUnknown = false → c.printAllValues = true → List.Forall₂ a.IsDetail ms x.details
  invalid : x.isUnknown = false → c.printAllValues = false → c.printInvalidDetail = true →
    List.Forall₂ a.IsDetail (ms.filter Measurement.isInvalid) x.details
  none : c.printAllValues = false → c.printInvalidDetail = false → x.details = []
  /-- Without a validator no record is scored. -/
  unknown : x.isUnknown = true → x.details = []

section Details

variable {a : Archive} {c : Config} {k : Kind} {ms : List Measurement}

/-- Only the records of a kind that have their devices can have details. -/
theorem Archive.flatMap_details (a : Archive) (c : Config) (k : Kind) (ms : List Measurement) :
    (ms.flatMap fun m => c.details k m (a.devices.find? m.device)) =
      (a.counted ms k).flatMap fun m => c.details k m (a.devices.find? m.device) := by
  induction ms with
  | nil => rfl
  | cons m ms ih =>
      rw [show m :: ms = [m] ++ ms from rfl, a.counted_append, List.flatMap_append,
        List.flatMap_append, ih]
      apply congrArg (· ++ _)
      unfold counted OrderedMap.contains Config.details
      cases hdevice : a.devices.find? m.device <;> by_cases hkind : m.kind = k <;>
        simp [hdevice, hkind]

/-- A record that is not scored, or not to be shown, has no details. -/
theorem Config.details_eq_nil {m : Measurement}
    (h : ∀ v, Validator.of? m = .ok v → c.shows v.score = false) (device? : Option DeviceInfo) :
    c.details k m device? = [] := by
  unfold details detail?
  cases device? with
  | none => rfl
  | some device =>
      cases hv : Validator.of? m with
      | error e => simp
      | ok v => simp [h v hv]

/-- The details of records which are all shown. -/
theorem Archive.forall₂_details (h : ∀ m ∈ ms, m.kind = k ∧ a.devices.contains m.device = true ∧
    ∃ v, Validator.of? m = .ok v ∧ c.shows v.score = true) :
    List.Forall₂ a.IsDetail ms
      (ms.flatMap fun m => c.details k m (a.devices.find? m.device)) := by
  induction ms with
  | nil => exact .nil
  | cons m ms ih =>
      obtain ⟨⟨hkind, hcontains, v, hv, hshows⟩, hrest⟩ := List.forall_mem_cons.1 h
      obtain ⟨device, hdevice⟩ := Option.isSome_iff_exists.1 hcontains
      have hdetails : c.details k m (a.devices.find? m.device) =
          [detailText device m v v.score] := by
        unfold Config.details Config.detail?
        simp [hdevice, hkind, hv, hshows]
      rw [List.flatMap_cons, hdetails]
      exact .cons ⟨device, v, hdevice, hv, rfl⟩ (ih hrest)

end Details

/-- A record of a kind with a validator is scored. -/
theorem KindReport.Tells.scored {x : KindReport} {k : Kind} {ms : List Measurement}
    (h : x.Tells k ms) (hknown : x.isUnknown = false) {m : Measurement} (hkind : m.kind = k) :
    ∃ v, Validator.of? m = .ok v ∧ m.isInvalid = !v.score.isValid := by
  have hok := h.isUnknown m hkind
  unfold Measurement.isInvalid Measurement.errors
  rw [hknown] at hok
  cases hv : Validator.of? m with
  | error e => rw [hv] at hok; cases hok
  | ok v => exact ⟨v, rfl, congrArg (! ·) v.score.isValid_eq.symm⟩

/-- A kind is reported with what its counted records have for details. -/
theorem Run.details_reportOn (r : Run) (a : Archive) (unscheduled : List Window) {k : Kind}
    {x : KindReport} (hx : (r.reportOn a unscheduled).find? k = some x) :
    x.details = (a.counted (r.records a) k).flatMap fun m =>
      r.config.details k m (a.devices.find? m.device) := by
  have hsums := (r.sums_reportOn a unscheduled).details k
  unfold Report.detailsOf at hsums
  rwa [hx, a.flatMap_details] at hsums

/-- **Each kind has the details that the settings ask for.** -/
theorem Run.shows_reportOn (r : Run) (a : Archive) (unscheduled : List Window) {k : Kind}
    {x : KindReport} (hx : (r.reportOn a unscheduled).find? k = some x) :
    x.Shows r.config a (a.counted (r.records a) k) := by
  have htells : x.Tells k (a.counted (r.records a) k) :=
    (r.tallies_report unscheduled a).kind k x hx
  have hdetails := r.details_reportOn a unscheduled hx
  constructor
  case inOrder => exact (r.records_pairwise a).filter _
  case all =>
    -- Every record has its detail, so the details are those of all records that were counted.
    intro hknown hall
    rw [hdetails]
    apply Archive.forall₂_details
    intro m hm
    obtain ⟨-, hkind, hdevice⟩ := Archive.kind_of_mem_counted hm
    obtain ⟨v, hv, -⟩ := htells.scored hknown hkind
    exact ⟨hkind, hdevice, v, hv, by simp [Config.shows, hall]⟩
  case invalid =>
    intro hknown hall hinvalid
    have hshows : ∀ m, m.kind = k → ∃ v, Validator.of? m = .ok v ∧
        r.config.shows v.score = m.isInvalid := by
      intro m hkind
      obtain ⟨v, hv, hscore⟩ := htells.scored hknown hkind
      exact ⟨v, hv, by simp [Config.shows, hall, hinvalid, hscore]⟩
    -- A valid record has no detail, so that the valid ones can be left out of the list.
    rw [hdetails, flatMap_eq_of_filter (p := Measurement.isInvalid)]
    · apply Archive.forall₂_details
      intro m hm
      obtain ⟨hm, hbad⟩ := List.mem_filter.1 hm
      obtain ⟨-, hkind, hdevice⟩ := Archive.kind_of_mem_counted hm
      obtain ⟨v, hv, hshown⟩ := hshows m hkind
      exact ⟨hkind, hdevice, v, hv, hshown.trans hbad⟩
    · intro m hm hgood
      apply Config.details_eq_nil
      intro v hv
      obtain ⟨_, hv', hshown⟩ := hshows m (Archive.kind_of_mem_counted hm).2.1
      obtain rfl := Except.ok.inj (hv.symm.trans hv')
      exact hshown.trans hgood
  case none =>
    intro hall hinvalid
    rw [hdetails, List.flatMap_eq_nil_iff]
    intro m _
    exact Config.details_eq_nil (fun v _ => by simp [Config.shows, hall, hinvalid]) _
  case unknown =>
    intro hunknown
    rw [hdetails, List.flatMap_eq_nil_iff]
    intro m hm
    have hok := htells.isUnknown m (Archive.kind_of_mem_counted hm).2.1
    refine Config.details_eq_nil (fun v hv => ?_) _
    rw [hunknown, hv] at hok
    cases hok

/-! ## Runs under other settings

`Run.SameResults` is what two runs have in common that differ in their settings only. On an archive
the size of a page is one of these settings. -/

/-- What becomes of two runs, the second of which has other settings and begins with the archive
`b`: they report `rep` and `rep'` and add the results `x` and `x'`. -/
structure Run.SameResults (r r' : Run) (unscheduled : List Window) (a b : Archive)
    (rep rep' : Report) (x x' : Batch) : Prop where
  first : ((r.execute Archive.store unscheduled).perform a).value = .ok rep
  second : ((r'.execute Archive.store unscheduled).perform b).value = .ok rep'
  /-- The reports are equal but for their names, those of summaries, and details. -/
  reports : rep'.plain.anonymous = rep.plain.anonymous ∧ rep'.repaired = rep.repaired
  summaries : ((r.execute Archive.store unscheduled).perform a).state.summaries =
      a.summaries ++ x.summaries ∧
    ((r'.execute Archive.store unscheduled).perform b).state.summaries = b.summaries ++ x'.summaries
  entries : ((r.execute Archive.store unscheduled).perform a).state.entries =
      a.entries ++ x.entries ∧
    ((r'.execute Archive.store unscheduled).perform b).state.entries = b.entries ++ x'.entries
  results : x.SameButNames x'
  /-- The measurements, with what was repaired of them, are the same after both. -/
  measurements : ((r'.execute Archive.store unscheduled).perform b).state.measurements =
    ((r.execute Archive.store unscheduled).perform a).state.measurements

theorem Run.SameRecords.sameResults {r r' : Run} {a b : Archive} (h : r.SameRecords r' a b)
    (unscheduled : List Window) :
    r.SameResults r' unscheduled a b (r.reportOn a unscheduled) (r'.reportOn b unscheduled)
      (r.batch a) (r'.batch b) := by
  obtain ⟨hvalue, hstate⟩ := r.perform_execute a unscheduled
  obtain ⟨hvalue', hstate'⟩ := r'.perform_execute b unscheduled
  constructor
  case first => exact hvalue
  case second => exact hvalue'
  case reports => exact reportOn_alike h unscheduled
  case summaries =>
    rw [hstate, hstate']
    exact ⟨(r.filed_leave a).summaries, (r'.filed_leave b).summaries⟩
  case entries =>
    rw [hstate, hstate']
    exact ⟨(r.filed_leave a).entries, (r'.filed_leave b).entries⟩
  case results => exact batch_sameButNames (forall₂_filings h)
  case measurements =>
    rw [hstate, hstate']
    exact h.measurements_leave

/-- The run under other settings. -/
def Run.under (r : Run) (c : Config) : Run := { r with config := c }

/-- The settings `c`, under which a run is made again at the time and with the name `d`, decide what
is shown and nothing else. -/
structure Run.OnlyShownBy (r : Run) (d : String × Instant) (c : Config)
    (unscheduled : List Window) : Prop where
  /-- Other settings than the size of pages make no difference to any store, nor to what becomes of
  the run but for the name and the details of its report. -/
  anyStore : ∀ {σ : Type} (store : Store σ) (s : σ),
    let x := (r.execute store unscheduled).outcome s
    let y := (((r.again d).under { c with pageSize := r.config.pageSize }).execute store
      unscheduled).outcome s
    y.1.map Report.plain = x.1.map Report.plain ∧ y.2 = x.2
  /-- On an archive no setting makes a difference, whatever names it gives. -/
  onArchive : ∀ (a : Archive) (first : Nat), ∃ rep rep' x x',
    r.SameResults ((r.again d).under c) unscheduled a { a with first } rep rep' x x'
  /-- Each kind is reported with the details that the settings ask for. -/
  details : ∀ a rep, ((r.execute Archive.store unscheduled).perform a).value = .ok rep →
    ∀ k x, rep.find? k = some x → x.Shows r.config a (a.counted (r.records a) k)

/-- **Settings decide what is shown, and nothing else.** -/
theorem Run.onlyShownBy (r : Run) (d : String × Instant) (c : Config)
    (unscheduled : List Window) : r.OnlyShownBy d c unscheduled := by
  constructor
  case anyStore =>
    intro σ store s x y
    have hwork : r.SameWork ((r.again d).under { c with pageSize := r.config.pageSize }) :=
      ⟨rfl, rfl, rfl⟩
    obtain ⟨hanswer, hstate, -⟩ := execute_agree store hwork unscheduled s s rfl
    exact ⟨RunError.Agree.map_eq hanswer, hstate.symm⟩
  case onArchive =>
    intro a first
    have hsame : r.SameRecords ((r.again d).under c) a { a with first } := ⟨rfl, rfl, rfl, rfl, rfl⟩
    exact ⟨_, _, _, _, hsame.sameResults unscheduled⟩
  case details =>
    intro a rep hrep k x hx
    obtain ⟨hvalue, -⟩ := r.perform_execute a unscheduled
    rw [hvalue] at hrep
    cases hrep
    exact r.shows_reportOn a unscheduled hx

end NetAudit
