import NetAudit.Proofs.Dashboard.Renamed
import NetAudit.Proofs.Request.Renamed
import NetAudit.Proofs.Run.Covered
import NetAudit.Proofs.Store.Loaded

/-!
# The order of delivery

An archive is filled from a snapshot, and then asked. In which order the items of the snapshot came
is not to be seen in any answer, nor in what is stored or shown afterwards
(`Snapshot.Rearranged.loadedAlike`). Only of items with one name the order decides: it is the last
of them that runs read, and each of them reads it once (`Run.ReadsLast`).
-/

namespace NetAudit

/-! ## Archives of rearranged snapshots

Rearranged snapshots fill the same tables, and what is stored afterwards is numbered from where the
archive begins. -/

theorem Archive.numbered_ofSnapshot (first : Nat) (s : Snapshot) :
    (ofSnapshot first s).Numbered := by
  unfold Numbered
  rw [(ofSnapshot_frame first s).2.1]
  rfl

theorem Snapshot.Rearranged.sameButNames {s s' : Snapshot} (h : s.Rearranged s')
    (first first' : Nat) :
    (Archive.ofSnapshot first s).SameButNames (Archive.ofSnapshot first' s') where
  measurements := h.measurements_eq first first'
  devices := h.devices_eq first first'
  tasks := h.tasks_eq first first'
  results := by
    obtain ⟨-, hsummaries, hentries⟩ := Archive.ofSnapshot_frame first s
    obtain ⟨-, hsummaries', hentries'⟩ := Archive.ofSnapshot_frame first' s'
    unfold Archive.stored
    rw [hsummaries, hentries, hsummaries', hentries']
    exact ⟨rfl, .nil⟩
  numbered := ⟨Archive.numbered_ofSnapshot first s, Archive.numbered_ofSnapshot first' s'⟩

/-! ## What runs read

A run reads the table of measurements, so of several items with one name it reads the last one. -/

/-- The run reads the records `ms` of the archive of a snapshot, and reports `rep`: of the
measurements with one name the last one, and that once. -/
structure Run.ReadsLast (r : Run) (unscheduled : List Window) (first : Nat) (s : Snapshot)
    (rep : Report) (ms : List Measurement) : Prop where
  report : ((r.execute Archive.store unscheduled).perform (.ofSnapshot first s)).value = .ok rep
  stream : ((r.stream Archive.store).outcome (.ofSnapshot first s)).1 =
    ((r.tally (.ofSnapshot first s), ms), none)
  last : ∀ m ∈ ms, lastNamed? Measurement.id s.measurements m.id = some m ∧
    r.query.isMatch m = true
  once : (ms.map (·.id)).Nodup
  ordered : ms.Pairwise Measurement.Precedes
  /-- A last one that matches is missing only behind a full list. -/
  complete : ∀ m, lastNamed? Measurement.id s.measurements m.id = some m →
    r.query.isMatch m = true → m ∉ ms → r.limit = some ms.length ∧ ∀ n ∈ ms, n.Precedes m
  /-- Each measurement that is read counts once, and nothing else does. -/
  counted : rep.Tallies (.ofSnapshot first s) ms

theorem Run.readsLast (r : Run) (unscheduled : List Window) (first : Nat) (s : Snapshot) :
    r.ReadsLast unscheduled first s (r.reportOn (.ofSnapshot first s) unscheduled)
      (r.records (.ofSnapshot first s)) := by
  have hwants := (Archive.ofSnapshot first s).wants_listed r.query
  rw [← r.records_eq_listed] at hwants
  constructor
  case report => exact (r.perform_execute _ unscheduled).1
  case stream => exact r.stream_outcome _
  case last =>
    intro m hm
    rw [← Archive.find?_measurements_ofSnapshot first]
    exact hwants.stored m hm
  case once => exact hwants.distinct
  case ordered => exact hwants.ordered
  case complete =>
    intro m hm
    rw [← Archive.find?_measurements_ofSnapshot first] at hm
    exact hwants.complete m hm
  case counted => exact r.tallies_report unscheduled _

/-- What becomes of a run on the archives of two snapshots: both report the same but for names, add
the same results under other names, and have read the same records. -/
structure Run.ReadsAlike (r : Run) (unscheduled : List Window) (first first' : Nat)
    (s s' : Snapshot) (rep rep' : Report) (ms : List Measurement) (x x' : Batch) : Prop where
  left : r.ReadsLast unscheduled first s rep ms
  right : r.ReadsLast unscheduled first' s' rep' ms
  reports : rep'.nameless = rep.nameless
  results : r.SameResults r unscheduled (.ofSnapshot first s) (.ofSnapshot first' s') rep rep' x x'

/-! ## Whatever is asked

`Snapshot.LoadedAlike` goes through all that can be asked of an archive: runs, requests in a row,
and the dashboards after them. -/

/-- **The snapshots are loaded alike**, in archives that name results from `first` and from
`first'`. -/
structure Snapshot.LoadedAlike (s s' : Snapshot) (first first' : Nat) : Prop where
  /-- With the names from one number, the archives are equal. -/
  archives : Archive.ofSnapshot first s' = Archive.ofSnapshot first s
  /-- Inquiries in a row, with any queue and any notifier, are answered alike. Then the archives
  hold the same, and are shown alike. -/
  inquiries : ∀ {κ ν : Type} (queue : JobQueue κ) (notifier : Notifier ν) (k : κ) (n : ν)
    (qs : List Inquiry),
    let x := Inquiry.answerAll queue notifier qs ⟨.ofSnapshot first s, k, n⟩
    let y := Inquiry.answerAll queue notifier qs ⟨.ofSnapshot first' s', k, n⟩
    y.1.map Inquiry.nameless = x.1.map Inquiry.nameless ∧
      x.2.SameButNames y.2 ∧ x.2.store.ShownAlike y.2.store
  runs : ∀ (r : Run) (unscheduled : List Window), ∃ rep rep' ms x x',
    r.ReadsAlike unscheduled first first' s s' rep rep' ms x x'

/-- **The order of delivery is not to be seen.** -/
theorem Snapshot.Rearranged.loadedAlike {s s' : Snapshot} (h : s.Rearranged s')
    (first first' : Nat) : s.LoadedAlike s' first first' := by
  -- With the same first id, the archives are even equal. From another one on, only names differ.
  have hsame := h.sameButNames first first'
  constructor
  case archives => exact h.ofSnapshot_eq first
  case inquiries =>
    intro κ ν queue notifier k n qs x y
    have hworlds : World.SameButNames ⟨Archive.ofSnapshot first s, k, n⟩
        ⟨Archive.ofSnapshot first' s', k, n⟩ := ⟨hsame, rfl, rfl⟩
    obtain ⟨hanswers, hlater⟩ := Inquiry.answerAll_alike queue notifier hworlds qs
    exact ⟨hanswers, hlater, hlater.store.shownAlike⟩
  case runs =>
    intro r unscheduled
    have hrecords : r.records (.ofSnapshot first' s') = r.records (.ofSnapshot first s) :=
      (hsame.sameRecords r).records_eq
    have hright := r.readsLast unscheduled first' s'
    rw [hrecords] at hright
    exact ⟨_, _, _, _, _, r.readsLast unscheduled first s, hright,
      hsame.nameless_reportOn r unscheduled, (hsame.sameRecords r).sameResults unscheduled⟩

/-- A phone has sent a ping that failed, another ping, and the first one once more. -/
def Snapshot.ofTwicePing : Snapshot where
  devices := [⟨⟨"phone"⟩, none, none, none⟩]
  tasks := []
  measurements := [
    ⟨⟨"ping"⟩, .ping, .epoch, false, .empty, .empty, ⟨"phone"⟩, none⟩,
    ⟨⟨"pong"⟩, .ping, .epoch, true, .empty, .empty, ⟨"phone"⟩, none⟩,
    ⟨⟨"ping"⟩, .ping, .epoch, true, .empty, .empty, ⟨"phone"⟩, none⟩]

/-- The other ping has come last. -/
def Snapshot.ofLatePong : Snapshot :=
  { ofTwicePing with
    measurements := [
      ⟨⟨"ping"⟩, .ping, .epoch, false, .empty, .empty, ⟨"phone"⟩, none⟩,
      ⟨⟨"ping"⟩, .ping, .epoch, true, .empty, .empty, ⟨"phone"⟩, none⟩,
      ⟨⟨"pong"⟩, .ping, .epoch, true, .empty, .empty, ⟨"phone"⟩, none⟩] }

theorem Snapshot.rearranged_ofLatePong : ofTwicePing.Rearranged ofLatePong where
  devices := ⟨.refl _, fun _ => rfl⟩
  tasks := ⟨.refl _, fun _ => rfl⟩
  measurements := by
    refine ⟨.cons _ (.swap _ _ _), fun id => ?_⟩
    by_cases hping : ⟨"ping"⟩ = id
    · subst hping
      decide
    · by_cases hpong : ⟨"pong"⟩ = id
      · subst hpong
        decide
      · simp [ofTwicePing, ofLatePong, hping, hpong]

theorem Snapshot.loadedAlike_ofLatePong : ofTwicePing.LoadedAlike ofLatePong 0 1 :=
  rearranged_ofLatePong.loadedAlike 0 1

/-- The ping that failed is not read. -/
example : (Run.ofFirstInstant.records (.ofSnapshot 0 .ofLatePong)).map
    (fun m => (m.id.text, m.success)) = [("ping", true), ("pong", true)] := by cbv

end NetAudit
