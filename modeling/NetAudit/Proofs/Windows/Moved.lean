import NetAudit.Proofs.Windows

/-!
# Windows on a later day

Moved to a later day, a bound keeps its time of day, but a bound in a leap second falls back into
the second before it. So the bounds of a window keep their order, unless the window ends in the leap
second and starts in the second before, late enough in it (`Window.FoldsBack`).

* `Window.addDays?_eq_error_iff` — when there is no such day;
* `Window.lt_iff_not_foldsBack` — when the bounds on the later day are in order;
* `Window.staysRunnable_iff` — when a window that can be run over leads to windows that can be run
  over, or to none.
-/

namespace NetAudit

open Calendar

namespace Window

variable {w v : Window}

/-- A window has no later day if the calendar has no such day for its end. -/
theorem addDays?_eq_error_iff (h : w.start < w.stop) (days : Nat) {e : WindowError} :
    w.addDays? days = .error e ↔
      lastSecond < w.stop.second + days * 86400 ∧ e = .beyondCalendar days := by
  have hday := w.hasDay_iff days
  have hle : w.start.second ≤ w.stop.second := by
    rw [Instant.lt_def] at h
    omega
  -- The window can be had just if its end stays within the calendar, and no other error is known.
  cases hmoved : w.addDays? days with
  | ok v =>
      have hin := hday.1 (hasDay_iff_exists.2 ⟨v, hmoved⟩)
      constructor
      · intro herror
        cases herror
      · rintro ⟨hlast, -⟩
        omega
  | error d =>
      have hd : d = .beyondCalendar days := by
        unfold addDays? at hmoved
        split at hmoved
        · cases hmoved
        · cases hmoved
          rfl
      have hout : ¬w.hasDay days = true := by
        rw [hasDay_iff_exists, hmoved]
        rintro ⟨v, hv⟩
        cases hv
      rw [hday] at hout
      constructor
      · rintro ⟨⟩
        exact ⟨by omega, hd⟩
      · rintro ⟨-, rfl⟩
        rw [hd]

/-- The window starts in the second before a leap second and ends in the leap second, no further
into it than it starts into the second before. -/
def FoldsBack (w : Window) : Prop :=
  w.start.isLeap = false ∧ w.stop.isLeap = true ∧ w.start.second = w.stop.second ∧
    w.stop.nano ≤ w.start.nano + nanosPerSecond

instance (w : Window) : Decidable w.FoldsBack := inferInstanceAs (Decidable (_ ∧ _))

/-- **Bounds on a later day are in order** but for a window that folds back. -/
theorem lt_iff_not_foldsBack (h : w.start < w.stop) {days : Nat} (hpos : 0 < days)
    (hday : w.addDays? days = .ok v) : v.start < v.stop ↔ ¬w.FoldsBack := by
  obtain ⟨hstart, hstop⟩ := addDays?_eq_ok_iff.1 hday
  obtain ⟨hs, hns⟩ := (Instant.addDays?_eq_some_iff hpos).1 hstart
  obtain ⟨he, hne⟩ := (Instant.addDays?_eq_some_iff hpos).1 hstop
  have hslt := w.start.nano_lt
  have helt := w.stop.nano_lt
  rw [Instant.lt_def] at h ⊢
  simp only [FoldsBack, Instant.isLeap, decide_eq_false_iff_not, decide_eq_true_eq, hs, hns, he,
    hne]
  unfold nanosPerSecond at *
  omega

/-- On a later day there is a window that is accepted, or the calendar does not have the day. -/
def StaysRunnable (w : Window) (days : Int) : Prop :=
  w.addDays? days = .error (.beyondCalendar days) ∨
    ∃ v, w.addDays? days = .ok v ∧ between? v.start v.stop = .ok v

/-- **A window can be run over on a later day**, if the calendar has the day, unless it folds
back. -/
theorem staysRunnable_iff (hw : between? w.start w.stop = .ok w) {days : Int} (hdays : 1 ≤ days) :
    w.StaysRunnable days ↔ lastSecond < w.stop.second + days * 86400 ∨ ¬w.FoldsBack := by
  obtain ⟨n, rfl⟩ := Int.eq_ofNat_of_zero_le (show 0 ≤ days by omega)
  have hlt := (accepted_iff w).1 hw
  have hpos : 0 < n := by omega
  unfold StaysRunnable
  cases hday : w.addDays? n with
  | error e =>
      obtain ⟨hlast, rfl⟩ := (addDays?_eq_error_iff hlt n).1 hday
      simp [hlast]
  | ok v =>
      have hin : ¬lastSecond < w.stop.second + n * 86400 := by
        intro hlast
        rw [(addDays?_eq_error_iff hlt n).2 ⟨hlast, rfl⟩] at hday
        cases hday
      simp [hin, accepted_iff, lt_iff_not_foldsBack hlt hpos hday]

/-- A third of a second within a leap second. -/
def withinLeapSecond : Window where
  start := ⟨1341100799, 1100000000, by decide, by decide, by decide, by decide⟩
  stop := ⟨1341100799, 1400000000, by decide, by decide, by decide, by decide⟩

theorem staysRunnable_withinLeapSecond :
    between? withinLeapSecond.start withinLeapSecond.stop = .ok withinLeapSecond ∧
      (1 : Int) ≤ 3 ∧ withinLeapSecond.StaysRunnable 3 := by
  have hw : between? withinLeapSecond.start withinLeapSecond.stop = .ok withinLeapSecond :=
    (accepted_iff _).2 (by decide)
  exact ⟨hw, by decide, (staysRunnable_iff hw (by decide)).2 (.inr (by decide))⟩

/-- Less than a second up to a leap second, and into it. -/
def intoLeapSecond : Window where
  start := ⟨1341100799, 600000000, by decide, by decide, by decide, by decide⟩
  stop := ⟨1341100799, 1100000000, by decide, by decide, by decide, by decide⟩

/-- The window that it is a day later: it ends before it starts. -/
def dayAfterLeapSecond : Window where
  start := ⟨1341187199, 600000000, by decide, by decide, by decide, by decide⟩
  stop := ⟨1341187199, 100000000, by decide, by decide, by decide, by decide⟩

theorem not_staysRunnable_intoLeapSecond :
    between? intoLeapSecond.start intoLeapSecond.stop = .ok intoLeapSecond ∧
      intoLeapSecond.addDays? 1 = .ok dayAfterLeapSecond ∧
      dayAfterLeapSecond.stop < dayAfterLeapSecond.start ∧ ¬intoLeapSecond.StaysRunnable 1 := by
  have hday : intoLeapSecond.addDays? 1 = .ok dayAfterLeapSecond :=
    addDays?_eq_ok_iff.2 ⟨by decide, by decide⟩
  refine ⟨(accepted_iff _).2 (by decide), hday, by decide, ?_⟩
  rintro (herror | ⟨v, hv, haccepted⟩)
  · cases hday.symm.trans herror
  · cases hday.symm.trans hv
    exact absurd ((accepted_iff _).1 haccepted) (by decide)

end Window

end NetAudit
