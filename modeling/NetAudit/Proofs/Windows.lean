import NetAudit.Proofs.Calendar.Days

/-!
# Windows in a row

Windows of which each begins where the one before it ends have no instant in common, and together
they are one window (`Window.Tiles`). Such are the windows of days in a row
(`Window.tiles_daysFrom`): where an instant is moved by a day once it has lost its leap second, so
that the end of a day is the start of the next one, whatever the first one begins with.
-/

namespace NetAudit

open Calendar (Instant)

/-! ## Instants in order

Instants are ordered by their second and then by what is behind it, leap seconds included. -/

namespace Calendar.Instant

variable {s t u : Instant}

theorem lt_irrefl (t : Instant) : ¬ t < t := by
  simp [lt_def]

theorem le_of_lt (h : s < t) : s ≤ t := by
  rw [lt_def] at h
  rw [le_def, lt_def]
  omega

theorem lt_of_lt_of_le (h₁ : s < t) (h₂ : t ≤ u) : s < u := by
  rw [le_def, lt_def] at h₂
  rw [lt_def] at h₁ ⊢
  omega

end Calendar.Instant

namespace Window

/-! ## Bounds in order

A window has its first bound in it and its last one not. So windows that follow each other have no
instant in common. -/

theorem between?_eq_ok_iff {t u : Instant} {w : Window} :
    between? t u = .ok w ↔ w.start = t ∧ w.stop = u ∧ t < u := by
  obtain ⟨start, stop⟩ := w
  unfold between?
  split
  · next hlt => simp [hlt, eq_comm]
  · next hlt => simp [hlt]

theorem between?_eq_error_iff {t u : Instant} {e : WindowError} :
    between? t u = .error e ↔ ¬t < u ∧ e = .notBefore t u := by
  unfold between?
  split
  · next hlt => simp [hlt]
  · next hlt => simp [hlt, eq_comm]

/-- A window is accepted if its bounds are in order. -/
theorem accepted_iff (w : Window) : between? w.start w.stop = .ok w ↔ w.start < w.stop := by
  simp [between?_eq_ok_iff]

theorem contains_iff {w : Window} {t : Instant} :
    w.contains t = true ↔ w.start ≤ t ∧ t < w.stop := by
  simp [contains]

/-- No instant lies in both windows. -/
def Disjoint (w v : Window) : Prop := ∀ t, w.contains t = true → v.contains t = false

theorem Disjoint.symm {w v : Window} (h : w.Disjoint v) : v.Disjoint w := by
  intro t hv
  rw [← Bool.not_eq_true]
  intro hw
  rw [h t hw] at hv
  cases hv

/-- A window that begins where another one has ended is disjoint from it. -/
theorem disjoint_of_le {w v : Window} (h : w.stop ≤ v.start) : w.Disjoint v := by
  intro t hw
  rw [← Bool.not_eq_true]
  intro hv
  have hlt := Instant.lt_of_lt_of_le (contains_iff.1 hw).2 h
  exact Instant.lt_irrefl t (Instant.lt_of_lt_of_le hlt (contains_iff.1 hv).1)

/-- The windows follow each other without a gap, from one instant to another. -/
inductive Tiles : List Window → Instant → Instant → Prop where
  | nil (t : Instant) : Tiles [] t t
  | cons {w : Window} {ws : List Window} {u : Instant} (hw : w.start < w.stop)
    (hws : Tiles ws w.stop u) : Tiles (w :: ws) w.start u

variable {ws : List Window} {t u : Instant}

theorem Tiles.le (h : Tiles ws t u) : t ≤ u := by
  induction h with
  | nil t => exact Instant.lt_irrefl t
  | cons hw _ ih => exact Instant.le_of_lt (Instant.lt_of_lt_of_le hw ih)

theorem Tiles.le_start (h : Tiles ws t u) : ∀ w ∈ ws, t ≤ w.start := by
  induction h with
  | nil t => exact fun w hw => absurd hw List.not_mem_nil
  | @cons v ws u hv _ ih =>
      intro w hw
      rcases List.mem_cons.1 hw with rfl | hw
      · exact Instant.lt_irrefl w.start
      · exact Instant.le_of_lt (Instant.lt_of_lt_of_le hv (ih w hw))

theorem Tiles.pairwise_disjoint (h : Tiles ws t u) : ws.Pairwise Disjoint := by
  induction h with
  | nil => exact .nil
  | cons _ hws ih => exact ih.cons fun v hv => disjoint_of_le (hws.le_start v hv)

end Window

/-! ## Days in a row

A day after a day is two days after. With a leap second at the beginning this holds from the second
day on, since the leap second is lost with the first move. -/

namespace Window

variable {start stop : Instant}

/-- The window of a day, so many days later, ends where that of the next day begins. -/
theorem addDays?_of_day (hstop : start.addDays? 1 = some stop) {day : Nat} {t u : Instant}
    (ht : start.addDays? day = some t) (hu : start.addDays? (day + 1 : Nat) = some u) :
    addDays? ⟨start, stop⟩ day = .ok ⟨t, u⟩ := by
  refine addDays?_eq_ok_iff.2 ⟨ht, ?_⟩
  have hone : start.addDays? (1 : Nat) = some stop := hstop
  have hday := Instant.addDays?_addDays? hone day
  rcases Nat.eq_zero_or_pos day with rfl | hpos
  · rw [hday, if_pos rfl, ← hstop]
    exact hu
  · rw [hday, if_neg (Nat.ne_of_gt hpos), Nat.add_comm, hu]

/-- **The windows of days in a row follow each other**, and none of them is missing. -/
theorem tiles_daysFrom (hstop : start.addDays? 1 = some stop) {first count : Nat} {t u : Instant}
    (ht : start.addDays? first = some t) (hu : start.addDays? (first + count : Nat) = some u) :
    (daysFrom ⟨start, stop⟩ first count).length = count ∧
      Tiles (daysFrom ⟨start, stop⟩ first count) t u := by
  induction count generalizing first t with
  | zero =>
      obtain rfl : t = u := Option.some.inj (ht.symm.trans hu)
      exact ⟨rfl, .nil t⟩
  | succ count ih =>
      -- The day after the first is there, as the last one is.
      obtain ⟨v, hv⟩ : ∃ v, start.addDays? (first + 1 : Nat) = some v := by
        have hlast := (Instant.exists_addDays?_iff start _).1 ⟨u, hu⟩
        rw [Instant.exists_addDays?_iff]
        push_cast at hlast ⊢
        omega
      have hlt : t < v := by
        apply Instant.lt_of_addDays? Nat.one_pos
        have hnext := Instant.addDays?_addDays? ht 1
        rw [if_neg Nat.one_ne_zero, hv] at hnext
        exact hnext
      have hlast : start.addDays? (first + 1 + count : Nat) = some u := by
        rw [Nat.add_right_comm]
        exact hu
      obtain ⟨hlength, htiles⟩ := ih hv hlast
      rw [daysFrom_succ_of_ok (addDays?_of_day hstop ht hv), List.length_cons, hlength]
      exact ⟨rfl, .cons (w := ⟨t, v⟩) hlt htiles⟩

end Window

end NetAudit
