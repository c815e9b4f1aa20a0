import NetAudit.Window

/-!
# Days in a row

An instant is moved by whole days as long as the calendar reaches so far. Three facts are all that
is needed of this:

* `Instant.addDays?_eq_some_iff` — which instant it becomes; a leap second is lost on the way;
* `Instant.exists_addDays?_iff` — when there is one, so an earlier day is never missing where a
  later one is not;
* `Instant.addDays?_addDays?` — days after days are days, leap second or not.

For windows this says that the days that can be had are the first ones (`Window.hasDay_of_le`).
-/

namespace NetAudit

open Calendar

namespace Calendar.Instant

/-! ## Moving an instant

Whole days are added to the second, and the part behind the second stays, without a leap second. The
calendar ends with a last second. -/

theorem ofParts?_eq_some_iff {second : Int} {nano : Nat} {u : Instant} :
    ofParts? second nano = some u ↔ u.second = second ∧ u.nano = nano := by
  unfold ofParts?
  split
  · next h =>
    rw [Option.some.injEq]
    constructor
    · rintro rfl
      exact ⟨rfl, rfl⟩
    · rintro ⟨rfl, rfl⟩
      rfl
  · next h =>
    constructor
    · intro hnone
      cases hnone
    · rintro ⟨rfl, rfl⟩
      exact absurd ⟨⟨u.first_le, u.le_last⟩, u.nano_lt, u.leap_ends_minute⟩ h

/-- **On a later day** an instant has the same second of the day, and the nanoseconds of that second
without a leap second. -/
theorem addDays?_eq_some_iff {t u : Instant} {days : Nat} (h : 0 < days) :
    t.addDays? days = some u ↔
      u.second = t.second + days * 86400 ∧ u.nano = t.nano % nanosPerSecond := by
  have hlt := t.nano_lt
  have hne : (days : Int) ≠ 0 := by omega
  have hpos : ¬ (days : Int) < 0 := by omega
  unfold addDays?
  rw [if_neg hne, if_neg hpos]
  by_cases hleap : t.isLeap = true
  · -- The nanoseconds of a leap second go on from those of the second before it.
    have hle : nanosPerSecond ≤ t.nano := by simpa [isLeap] using hleap
    have hmod : t.nano % nanosPerSecond = t.nano - nanosPerSecond := by
      rw [Nat.mod_eq_sub_mod hle, Nat.mod_eq_of_lt (by omega)]
    rw [if_pos hleap, ofParts?_eq_some_iff, hmod, Int.add_zero]
  · have hmod : t.nano % nanosPerSecond = t.nano := by
      apply Nat.mod_eq_of_lt
      simpa [isLeap] using hleap
    rw [if_neg hleap, ofParts?_eq_some_iff, hmod]

/-- **A later day is there** if its second is in the calendar. -/
theorem exists_addDays?_iff (t : Instant) (days : Nat) :
    (∃ u, t.addDays? days = some u) ↔ t.second + days * 86400 ≤ lastSecond := by
  rcases Nat.eq_zero_or_pos days with rfl | hpos
  · have hlast := t.le_last
    simpa [addDays?] using hlast
  · constructor
    · rintro ⟨u, hu⟩
      rw [← ((addDays?_eq_some_iff hpos).1 hu).1]
      exact u.le_last
    · intro hle
      have hfirst := t.first_le
      have hnano : t.nano % nanosPerSecond < nanosPerSecond := Nat.mod_lt _ (by decide)
      exact ⟨⟨t.second + days * 86400, t.nano % nanosPerSecond, by omega, hle, by omega,
        fun hleap => absurd hnano (Nat.not_lt.2 hleap)⟩, (addDays?_eq_some_iff hpos).2 ⟨rfl, rfl⟩⟩

theorem addDays?_addDays? {t u : Instant} {days : Nat} (hu : t.addDays? days = some u)
    (more : Nat) :
    u.addDays? more = if more = 0 then some u else t.addDays? (days + more : Nat) := by
  rcases Nat.eq_zero_or_pos more with rfl | hmore
  · rfl
  rw [if_neg (Nat.ne_of_gt hmore)]
  rcases Nat.eq_zero_or_pos days with rfl | hdays
  · have htu : t = u := Option.some.inj hu
    rw [htu, Nat.zero_add]
  · obtain ⟨hsecond, hnano⟩ := (addDays?_eq_some_iff hdays).1 hu
    apply Option.ext
    intro v
    rw [addDays?_eq_some_iff hmore, addDays?_eq_some_iff (Nat.add_pos_left hdays more), hsecond,
      hnano, Nat.mod_mod]
    constructor <;> rintro ⟨h₁, h₂⟩ <;> exact ⟨by push_cast at *; omega, h₂⟩

theorem lt_of_addDays? {t u : Instant} {days : Nat} (h : 0 < days) (hu : t.addDays? days = some u) :
    t < u := by
  have hsecond := ((addDays?_eq_some_iff h).1 hu).1
  left
  omega

end Calendar.Instant

namespace Window

/-! ## Moving a window

Both bounds are moved. The end comes last, so it is the end that meets the end of the calendar. -/

theorem toOption_eq_some_iff {ε α : Type} {answer : Except ε α} {a : α} :
    answer.toOption = some a ↔ answer = .ok a := by
  cases answer with
  | ok b => simp [Except.toOption]
  | error e => simp [Except.toOption]

theorem addDays?_eq_ok_iff {w v : Window} {days : Int} :
    w.addDays? days = .ok v ↔
      w.start.addDays? days = some v.start ∧ w.stop.addDays? days = some v.stop := by
  obtain ⟨start, stop⟩ := v
  unfold addDays?
  split
  · next h₁ h₂ => simp [h₁, h₂]
  · next h =>
    constructor
    · intro herror
      cases herror
    · rintro ⟨h₁, h₂⟩
      exact absurd h₂ (h _ _ h₁)

/-- The calendar has the window as many days later. -/
def hasDay (w : Window) (days : Nat) : Bool := (w.addDays? days).isOk

theorem hasDay_iff_exists {w : Window} {days : Nat} :
    w.hasDay days = true ↔ ∃ v, w.addDays? days = .ok v := by
  unfold hasDay
  cases w.addDays? days with
  | ok v => simp [Except.isOk, Except.toBool]
  | error e => simp [Except.isOk, Except.toBool]

theorem hasDay_iff (w : Window) (days : Nat) :
    w.hasDay days = true ↔
      w.start.second + days * 86400 ≤ lastSecond ∧ w.stop.second + days * 86400 ≤ lastSecond := by
  rw [hasDay_iff_exists, ← Instant.exists_addDays?_iff, ← Instant.exists_addDays?_iff]
  constructor
  · rintro ⟨v, hv⟩
    obtain ⟨hstart, hstop⟩ := addDays?_eq_ok_iff.1 hv
    exact ⟨⟨_, hstart⟩, ⟨_, hstop⟩⟩
  · rintro ⟨⟨start, hstart⟩, ⟨stop, hstop⟩⟩
    exact ⟨⟨start, stop⟩, addDays?_eq_ok_iff.2 ⟨hstart, hstop⟩⟩

/-- **No day is missing before one that is there.** -/
theorem hasDay_of_le {w : Window} {j k : Nat} (hjk : j ≤ k) (h : w.hasDay k = true) :
    w.hasDay j = true := by
  rw [hasDay_iff] at *
  omega

/-- The windows of `count` days from a day on, as far as the calendar has them. -/
def daysFrom (w : Window) (first count : Nat) : List Window :=
  (List.range' first count).filterMap fun k : Nat => (w.addDays? k).toOption

theorem mem_daysFrom_iff {w v : Window} {first count : Nat} :
    v ∈ w.daysFrom first count ↔
      ∃ day, first ≤ day ∧ day < first + count ∧ w.addDays? (day : Nat) = .ok v := by
  simp only [daysFrom, List.mem_filterMap, List.mem_range'_1, toOption_eq_some_iff, and_assoc]

theorem daysFrom_succ_of_ok {w v : Window} {first : Nat} (h : w.addDays? first = .ok v)
    (count : Nat) : w.daysFrom first (count + 1) = v :: w.daysFrom (first + 1) count := by
  unfold daysFrom
  rw [List.range'_succ, List.filterMap_cons_some (b := v) (by rw [h]; rfl)]

theorem daysFrom_eq_nil {w : Window} {first : Nat} (h : w.hasDay first = false) (count : Nat) :
    w.daysFrom first count = [] := by
  apply List.filterMap_eq_nil_iff.2
  intro k hk
  have hle := (List.mem_range'_1.1 hk).1
  have hmissing : ¬ ∃ v, w.addDays? k = .ok v := by
    rw [← hasDay_iff_exists]
    intro hday
    rw [hasDay_of_le hle hday] at h
    cases h
  cases hday : w.addDays? k with
  | ok v => exact absurd ⟨v, hday⟩ hmissing
  | error e => rfl

/-- The days that are there stand in a row. -/
theorem getElem?_daysFrom {w v : Window} {first count i : Nat}
    (h : (w.daysFrom first count)[i]? = some v) : w.addDays? (first + i : Nat) = .ok v := by
  induction count generalizing first i with
  | zero => exact absurd h (by simp [daysFrom])
  | succ count ih =>
      cases hday : w.addDays? first with
      | error e =>
          -- The days end with the first one that the calendar does not have.
          have hmissing : w.hasDay first = false := by
            unfold hasDay
            rw [hday]
            rfl
          rw [daysFrom_eq_nil hmissing] at h
          cases h
      | ok u =>
          rw [daysFrom_succ_of_ok hday] at h
          cases i with
          | zero => rw [← Option.some.inj h, Nat.add_zero, hday]
          | succ i =>
              rw [List.getElem?_cons_succ] at h
              rw [Nat.add_comm i 1, ← Nat.add_assoc]
              exact ih h

theorem length_daysFrom_le (w : Window) (first count : Nat) :
    (w.daysFrom first count).length ≤ count := by
  unfold daysFrom
  have hle := List.length_filterMap_le (fun k : Nat => (w.addDays? k).toOption)
    (List.range' first count)
  rwa [List.length_range'] at hle

/-- **The days that are there are all of the first ones.** -/
theorem hasDay_iff_lt_length (w : Window) (first : Nat) {count i : Nat} (hi : i < count) :
    w.hasDay (first + i) = true ↔ i < (w.daysFrom first count).length := by
  constructor
  · intro hday
    induction count generalizing first i with
    | zero => exact absurd hi (Nat.not_lt_zero i)
    | succ count ih =>
        obtain ⟨v, hv⟩ := hasDay_iff_exists.1 (hasDay_of_le (Nat.le_add_right first i) hday)
        rw [daysFrom_succ_of_ok hv, List.length_cons]
        cases i with
        | zero => exact Nat.succ_pos _
        | succ i =>
            rw [Nat.add_comm i 1, ← Nat.add_assoc] at hday
            exact Nat.succ_lt_succ (ih _ (Nat.lt_of_succ_lt_succ hi) hday)
  · intro hlt
    exact hasDay_iff_exists.2 ⟨_, getElem?_daysFrom (List.getElem?_eq_getElem hlt)⟩

end Window

end NetAudit
