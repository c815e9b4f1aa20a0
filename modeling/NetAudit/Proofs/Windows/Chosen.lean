import Mathlib.Data.List.TakeWhile
import NetAudit.Proofs.Answers
import NetAudit.Proofs.Windows

/-!
# Windows that a caller chooses

A caller writes a bound down or leaves it open; a bound that is left open is taken from the day
before the present one. That day is looked up in any case, so the choice panics on the first day of
the calendar, even if both bounds are written down. On all other days there is an answer, which is
one of three (`Window.ofBounds?_chooses`): a window in order, a complaint of a text, the start
first, or a complaint of bounds that are not in order.
-/

namespace NetAudit

open Calendar

/-! ## Blank texts

A text of white space alone counts as no text. -/

/-- A text is trimmed away if there is nothing but white space in it. -/
theorem Text.isBlankText_iff {s : String} :
    isBlankText s = true ↔ ∀ c ∈ s.toList, isBlank c = true := by
  unfold isBlankText trim trimRight trimLeft
  rw [List.isEmpty_iff, List.reverse_eq_nil_iff, List.dropWhile_eq_nil_iff]
  constructor
  · intro h
    rw [← List.dropWhile_eq_nil_iff]
    -- What is left by trimming the beginning does not begin with white space.
    cases hleft : s.toList.dropWhile isBlank with
    | nil => rfl
    | cons c cs =>
      have hblank := h c (by simp [hleft])
      rw [head_dropWhile hleft] at hblank
      cases hblank
  · intro h
    simp [List.dropWhile_eq_nil_iff.2 h]

/-! ## The day before

The day before is looked up by its first second, and only the first day of the calendar has none. -/

theorem Calendar.Instant.midnight_second (t : Instant) :
    t.midnight.second = t.second / 86400 * 86400 := by
  show t.second - t.second % 86400 = _
  omega

namespace Window

/-- The window is the day before that of an instant, from midnight to midnight. -/
structure IsDayBefore (day : Window) (now : Instant) : Prop where
  start_second : day.start.second = (now.second / 86400 - 1) * 86400
  start_nano : day.start.nano = 0
  stop_second : day.stop.second = now.second / 86400 * 86400
  stop_nano : day.stop.nano = 0

theorem isDayBefore_iff {day : Window} {now : Instant} :
    day.IsDayBefore now ↔
      Instant.ofParts? (now.midnight.second - 86400) 0 = some day.start ∧
        now.midnight = day.stop := by
  have hmidnight := now.midnight_second
  have hstart : (now.second / 86400 - 1) * 86400 = now.midnight.second - 86400 := by omega
  rw [Instant.ofParts?_eq_some_iff]
  constructor
  · rintro ⟨hs, hsn, he, hen⟩
    exact ⟨⟨hs.trans hstart, hsn⟩, Instant.ext (hmidnight.trans he.symm) hen.symm⟩
  · rintro ⟨⟨hs, hsn⟩, hstop⟩
    rw [← hstart] at hs
    exact ⟨hs, hsn, hstop ▸ hmidnight, hstop ▸ rfl⟩

/-- **The day before is found**, if there is one. -/
theorem yesterday_eq_returned_iff {day : Window} {now : Instant} :
    yesterday now = .returned day ↔ day.IsDayBefore now := by
  have hstart : now.midnight.addDays? (-1) = Instant.ofParts? (now.midnight.second - 86400) 0 := rfl
  rw [isDayBefore_iff, ← hstart, yesterday]
  obtain ⟨start, stop⟩ := day
  cases now.midnight.addDays? (-1) with
  | none => simp
  | some t => simp

/-- Only the first day of the calendar has no day before. -/
theorem exists_isDayBefore_iff (now : Instant) :
    (∃ day : Window, day.IsDayBefore now) ↔ firstSecond + 86400 ≤ now.second := by
  constructor
  · rintro ⟨day, h⟩
    have hfirst := day.start.first_le
    rw [h.start_second] at hfirst
    omega
  · intro h
    have hlast := now.le_last
    refine ⟨⟨⟨(now.second / 86400 - 1) * 86400, 0, ?_, ?_, Instant.epoch.nano_lt,
      fun h => absurd h (by decide)⟩, now.midnight⟩, rfl, rfl, now.midnight_second, rfl⟩
    · unfold firstSecond at *
      omega
    · omega

/-- To look for the day before panics where there is none. -/
theorem yesterday_eq_panicked_iff {now : Instant} :
    yesterday now = .panicked ↔ now.second < firstSecond + 86400 := by
  have hday := exists_isDayBefore_iff now
  simp only [← yesterday_eq_returned_iff] at hday
  rw [← Int.not_le, ← hday]
  cases yesterday now with
  | returned day => simp
  | panicked => simp

/-! ## Bounds

A bound is left open, or names an instant, or is garbled, and there is no fourth way. -/

/-- A caller leaves a bound open: there is no text, or nothing but white space in it. -/
def IsOpen (value : Option String) : Prop :=
  ∀ s, value = some s → ∀ c ∈ s.toList, Text.isBlank c = true

/-- The bound that stands for what a caller gives: the instant that a text names, and some other
instant where the bound is left open. -/
inductive Stands (value : Option String) (otherwise : Instant) : Instant → Prop where
  | byDefault (h : IsOpen value) : Stands value otherwise otherwise
  | named {s : String} {t : Instant} (hvalue : value = some s) (h : ¬IsOpen value)
    (ht : Instant.ofTimestamp? s = .ok t) : Stands value otherwise t

/-- What a caller gives for a bound is a text that names no instant. -/
structure Garbles (value : Option String) (s : String) (fault : TimestampFault) : Prop where
  given : value = some s
  not_isOpen : ¬IsOpen value
  refused : Instant.ofTimestamp? s = .error fault

section Bounds

variable {value : Option String} {s : String} {otherwise t : Instant}

theorem isOpen_none : IsOpen none := by
  intro s hs
  cases hs

theorem isOpen_some_iff : IsOpen (some s) ↔ Text.isBlankText s = true := by
  rw [Text.isBlankText_iff]
  constructor
  · intro h
    exact h s rfl
  · rintro h _ ⟨⟩
    exact h

/-- **A bound is read** in one of three ways. -/
theorem boundOr_cases (value : Option String) (otherwise : Instant) :
    (∃ t, boundOr value otherwise = .ok t ∧ Stands value otherwise t) ∨
      ∃ s fault, boundOr value otherwise = .error (.badTimestamp s fault) ∧
        Garbles value s fault := by
  cases value with
  | none => exact .inl ⟨otherwise, rfl, .byDefault isOpen_none⟩
  | some s =>
      unfold boundOr
      by_cases hblank : Text.isBlankText s = true
      · exact .inl ⟨otherwise, if_pos hblank, .byDefault (isOpen_some_iff.2 hblank)⟩
      · have hopen : ¬IsOpen (some s) := by rwa [isOpen_some_iff]
        simp only [if_neg hblank, bound?]
        cases hread : Instant.ofTimestamp? s with
        | ok t => exact .inl ⟨t, rfl, .named rfl hopen hread⟩
        | error fault => exact .inr ⟨s, fault, rfl, rfl, hopen, hread⟩

theorem Stands.eq {u : Instant} (ht : Stands value otherwise t) (hu : Stands value otherwise u) :
    t = u := by
  cases ht with
  | byDefault h =>
      cases hu with
      | byDefault => rfl
      | named _ hopen _ => exact absurd h hopen
  | named hvalue hopen ht =>
      cases hu with
      | byDefault h => exact absurd h hopen
      | named hvalue' _ hu =>
          cases hvalue.symm.trans hvalue'
          exact Except.ok.inj (ht.symm.trans hu)

theorem Stands.not_garbles {fault : TimestampFault} (ht : Stands value otherwise t) :
    ¬Garbles value s fault := by
  intro h
  cases ht with
  | byDefault hopen => exact h.not_isOpen hopen
  | named hvalue _ ht =>
      cases hvalue.symm.trans h.given
      cases ht.symm.trans h.refused

theorem boundOr_eq_ok_iff : boundOr value otherwise = .ok t ↔ Stands value otherwise t := by
  rcases boundOr_cases value otherwise with ⟨u, hu, hstands⟩ | ⟨s, fault, he, hgarbles⟩
  · rw [hu, Except.ok.injEq]
    constructor
    · rintro rfl
      exact hstands
    · exact hstands.eq
  · rw [he]
    constructor
    · intro herror
      cases herror
    · intro hstands
      exact absurd hgarbles hstands.not_garbles

theorem boundOr_eq_error_iff {e : WindowError} :
    boundOr value otherwise = .error e ↔
      ∃ s fault, Garbles value s fault ∧ e = .badTimestamp s fault := by
  rcases boundOr_cases value otherwise with ⟨u, hu, hstands⟩ | ⟨s, fault, he, hgarbles⟩
  · rw [hu]
    constructor
    · intro herror
      cases herror
    · rintro ⟨s, fault, hgarbles, -⟩
      exact absurd hgarbles hstands.not_garbles
  · rw [he, Except.error.injEq]
    constructor
    · rintro rfl
      exact ⟨s, fault, hgarbles, rfl⟩
    · rintro ⟨s', fault', hgarbles', rfl⟩
      cases hgarbles.given.symm.trans hgarbles'.given
      cases hgarbles.refused.symm.trans hgarbles'.refused
      rfl

/-- A bound that is written down does not depend on what stands otherwise. -/
theorem boundOr_eq (h : ¬IsOpen value) (otherwise other : Instant) :
    boundOr value otherwise = boundOr value other := by
  cases value with
  | none => exact absurd isOpen_none h
  | some s =>
      rw [isOpen_some_iff] at h
      simp [boundOr, h]

end Bounds

/-! ## Windows

The answers of a choice are told apart by its bounds, on every day that has a day before it. -/

section Choice

variable {start stop : Option String} {now : Instant}

theorem ofBounds?_eq_panicked_iff :
    ofBounds? start stop now = .panicked ↔ now.second < firstSecond + 86400 := by
  rw [← yesterday_eq_panicked_iff]
  unfold ofBounds?
  cases yesterday now with
  | panicked => simp
  | returned day => simp

/-- Where there is a day before, a choice is answered from its bounds. -/
theorem ofBounds?_eq_returned_iff {answer : Except WindowError Window} :
    ofBounds? start stop now = .returned answer ↔ ∃ day : Window, day.IsDayBefore now ∧
      (do between? (← boundOr start day.start) (← boundOr stop day.stop)) = answer := by
  simp only [← yesterday_eq_returned_iff]
  unfold ofBounds?
  cases yesterday now with
  | panicked => simp
  | returned day => simp

theorem ofBounds?_eq_ok_iff {w : Window} :
    ofBounds? start stop now = .returned (.ok w) ↔ ∃ day : Window, day.IsDayBefore now ∧
      Stands start day.start w.start ∧ Stands stop day.stop w.stop ∧ w.start < w.stop := by
  simp only [ofBounds?_eq_returned_iff, bind_eq_ok_iff, boundOr_eq_ok_iff, between?_eq_ok_iff]
  constructor
  · rintro ⟨day, hday, t, ht, u, hu, rfl, rfl, hlt⟩
    exact ⟨day, hday, ht, hu, hlt⟩
  · rintro ⟨day, hday, ht, hu, hlt⟩
    exact ⟨day, hday, _, ht, _, hu, rfl, rfl, hlt⟩

/-- **What can be wrong with a choice**, in the order in which it is looked for. -/
theorem ofBounds?_eq_error_iff {e : WindowError} :
    ofBounds? start stop now = .returned (.error e) ↔ ∃ day : Window, day.IsDayBefore now ∧
      ((∃ s fault, Garbles start s fault ∧ e = .badTimestamp s fault) ∨
        ∃ t, Stands start day.start t ∧
          ((∃ s fault, Garbles stop s fault ∧ e = .badTimestamp s fault) ∨
            ∃ u, Stands stop day.stop u ∧ ¬t < u ∧ e = .notBefore t u)) := by
  simp only [ofBounds?_eq_returned_iff, bind_eq_error_iff, boundOr_eq_ok_iff,
    boundOr_eq_error_iff, between?_eq_error_iff]

/-- What becomes of the bounds that a caller gives at the present instant. -/
structure Chooses (start stop : Option String) (now : Instant) : Prop where
  /-- The choice panics on the first day of the calendar, and on that day only. -/
  panics : ofBounds? start stop now = .panicked ↔ now.second < firstSecond + 86400
  /-- A window has the bounds that stand, and has them in order. -/
  chosen : ∀ w, ofBounds? start stop now = .returned (.ok w) ↔
    ∃ day : Window, day.IsDayBefore now ∧
      Stands start day.start w.start ∧ Stands stop day.stop w.stop ∧ w.start < w.stop
  /-- A text that names no instant is refused, that of the start first. -/
  garbled : ∀ s fault, ofBounds? start stop now = .returned (.error (.badTimestamp s fault)) ↔
    ∃ day : Window, day.IsDayBefore now ∧
      (Garbles start s fault ∨ (∃ t, Stands start day.start t) ∧ Garbles stop s fault)
  /-- Bounds that are not in order are refused. -/
  disordered : ∀ t u, ofBounds? start stop now = .returned (.error (.notBefore t u)) ↔
    ∃ day : Window, day.IsDayBefore now ∧
      Stands start day.start t ∧ Stands stop day.stop u ∧ ¬t < u
  /-- No choice is refused for days that the calendar does not have. -/
  unmoved : ∀ days, ofBounds? start stop now ≠ .returned (.error (.beyondCalendar days))
  /-- The present instant does not matter where both bounds are written down. -/
  timeless : ¬IsOpen start → ¬IsOpen stop → ∀ later : Instant,
    firstSecond + 86400 ≤ now.second → firstSecond + 86400 ≤ later.second →
      ofBounds? start stop later = ofBounds? start stop now

/-- **A window is chosen** by the texts of a caller and the day before the present one, on every day
that has a day before; on the first day of the calendar, nothing is chosen. -/
theorem ofBounds?_chooses (start stop : Option String) (now : Instant) :
    Chooses start stop now where
  panics := ofBounds?_eq_panicked_iff
  chosen w := ofBounds?_eq_ok_iff
  garbled s fault := by simp [ofBounds?_eq_error_iff]
  disordered t u := by
    simp only [ofBounds?_eq_error_iff, reduceCtorEq, and_false, exists_false,
      WindowError.notBefore.injEq, false_or]
    constructor
    · rintro ⟨day, hday, _, ht, _, hu, hlt, rfl, rfl⟩
      exact ⟨day, hday, ht, hu, hlt⟩
    · rintro ⟨day, hday, ht, hu, hlt⟩
      exact ⟨day, hday, t, ht, u, hu, hlt, rfl, rfl⟩
  unmoved days := by simp [ofBounds?_eq_error_iff]
  -- The window of the day before is put in for neither bound, so any such window will do.
  timeless hstart hstop later hnow hlater := by
    obtain ⟨day, hday⟩ := (exists_isDayBefore_iff now).2 hnow
    obtain ⟨day', hday'⟩ := (exists_isDayBefore_iff later).2 hlater
    unfold ofBounds?
    rw [yesterday_eq_returned_iff.2 hday, yesterday_eq_returned_iff.2 hday',
      Ending.returned_bind, Ending.returned_bind, boundOr_eq hstart day'.start day.start,
      boundOr_eq hstop day'.stop day.stop]

end Choice

end Window

/-- The first instant of the calendar. -/
def Calendar.Instant.first : Instant :=
  ⟨firstSecond, 0, Int.le_refl _, by decide, epoch.nano_lt, by decide⟩

/-- On the first day of the calendar a choice panics, though both bounds are written down. On
another day the same choice gives the window between them. -/
theorem Window.ofBounds?_first :
    ofBounds? (some "2012-03-20T00:00:00Z") (some "2012-03-21T00:00:00Z") .first = .panicked ∧
      ofBounds? (some "2012-03-20T00:00:00Z") (some "2012-03-21T00:00:00Z") .epoch =
        .returned (.ok ⟨⟨1332201600, 0, by decide, by decide, Instant.epoch.nano_lt, by decide⟩,
          ⟨1332288000, 0, by decide, by decide, Instant.epoch.nano_lt, by decide⟩⟩) := by
  constructor <;> decide +kernel

end NetAudit
