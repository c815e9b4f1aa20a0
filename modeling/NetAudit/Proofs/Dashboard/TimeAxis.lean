import NetAudit.Proofs.Dashboard.Windowless

/-!
# The rows of a series along time

A time series has a row for each start of a window, in the order of time. A row shows its start in
milliseconds, and these are rounded down and count a leap second with the second before it. So of
two rows the later may show the same milliseconds or fewer (`Calendar.Instant.Reaches`), and no
other two do (`Timeseries.ofStore_alongTime`).
-/

namespace NetAudit

open Calendar (Instant)

namespace Calendar.Instant

/-! ## Milliseconds

Of two instants in order the later one usually shows more milliseconds. The exceptions are two
instants in one millisecond, and a leap second with what comes just after it. -/

/-- The milliseconds of `s` reach those of `t`, which is later: both lie in one millisecond, or `s`
lies in a leap second and `t` no further in the second after it. -/
def Reaches (s t : Instant) : Prop :=
  s.second = t.second ∧ s.nano / 1000000 = t.nano / 1000000 ∨
    s.isLeap = true ∧ t.second = s.second + 1 ∧
      t.nano / 1000000 ≤ (s.nano - nanosPerSecond) / 1000000

/-- **Later instants have more milliseconds**, unless they are reached. -/
theorem millis_lt_iff {s t : Instant} (h : s < t) : s.millis < t.millis ↔ ¬s.Reaches t := by
  have hnano := s.nano_lt
  have hleap : s.isLeap = true ↔ nanosPerSecond ≤ s.nano := decide_eq_true_iff
  unfold Reaches millis
  rw [hleap]
  unfold nanosPerSecond at hnano ⊢
  -- Only a leap second has a thousand milliseconds and more.
  rcases lt_def.1 h with hsecond | ⟨hsecond, hlt⟩ <;> omega

end Calendar.Instant

namespace Timeseries

/-! ## Rows

The rows are those of the starts in order, so they rise but for these exceptions. -/

/-- Each row shows more milliseconds than those before it. -/
def Rising (rows : List TimeseriesRow) : Prop := rows.Pairwise fun r r' => r.millis < r'.millis

instance (rows : List TimeseriesRow) : Decidable (Rising rows) :=
  inferInstanceAs (Decidable (rows.Pairwise fun r r' => r.millis < r'.millis))

/-- The rows are those of the instants `starts`, which ascend, and show more milliseconds from one
to the next but where an instant is reached by one before it. -/
structure AlongTime (starts : List Instant) (rows : List TimeseriesRow) : Prop where
  ascending : starts.Pairwise (· < ·)
  millis : rows.map TimeseriesRow.millis = starts.map Instant.millis
  apart : starts.Pairwise fun s t => s.millis < t.millis ↔ ¬s.Reaches t
  rising_iff : Rising rows ↔ starts.Pairwise fun s t => ¬s.Reaches t

theorem AlongTime.of_millis {starts : List Instant} {rows : List TimeseriesRow}
    (hstarts : starts.Pairwise (· < ·))
    (hrows : rows.map TimeseriesRow.millis = starts.map Instant.millis) :
    AlongTime starts rows := by
  have hapart : starts.Pairwise fun s t => s.millis < t.millis ↔ ¬s.Reaches t :=
    hstarts.imp Instant.millis_lt_iff
  have hrising : Rising rows ↔ starts.Pairwise fun s t => s.millis < t.millis := by
    unfold Rising
    rw [← List.pairwise_map, hrows, List.pairwise_map]
  refine ⟨hstarts, hrows, hapart, hrising.trans ⟨fun h => ?_, fun h => ?_⟩⟩
  · exact (hapart.and h).imp fun ⟨hiff, hlt⟩ => hiff.1 hlt
  · exact (hapart.and h).imp fun ⟨hiff, hnot⟩ => hiff.2 hnot

/-- **A series goes along time**: it has one row for each start of a window, in their order, and the
milliseconds of the rows rise wherever they can tell two starts apart. -/
theorem ofStore_alongTime (a : Archive) (metric : Metric) (limit : Nat) :
    ∃ starts rows, ((ofStore Archive.store metric limit).perform a).value = .ok rows ∧
      (∀ start, start ∈ starts ↔
        ∃ row ∈ a.summariesByStart.take limit, row.value.windowStart = some start) ∧
      rows = starts.map (rowAt metric ((a.summariesByStart.take limit).map Stored.value)) ∧
      AlongTime starts rows := by
  have hrows := rows_eq metric ((a.summariesByStart.take limit).map Stored.value)
  refine ⟨_, _, rfl, fun start => ?_, hrows, .of_millis ?_ ?_⟩
  · simp only [mem_keys_points_iff, List.mem_map, exists_exists_and_eq_and]
  · exact (OrderedMap.pairwise_keys _).imp Instant.compare_eq_lt_iff.1
  · show (rows metric _).map _ = _
    rw [hrows, List.map_map]
    rfl

end Timeseries

/-- A ping was counted in each of some windows. -/
def Archive.ofStarts (starts : List Instant) : Archive :=
  (empty 0).storeAll <| starts.map fun start =>
    { Summary.new .ping with windowStart := some start, recordCount := 1 }

/-- Two instants of the last second before 1970, in one millisecond. -/
def Calendar.Instant.twoOfMilli : List Instant := [
  ⟨-1, 100000, by decide, by decide, by decide, by decide⟩,
  ⟨-1, 900000, by decide, by decide, by decide, by decide⟩]

/-- The middle of a leap second, and an instant in the second after it. -/
def Calendar.Instant.leapAndAfter : List Instant := [
  ⟨1230767999, 1500000000, by decide, by decide, by decide, by decide⟩,
  ⟨1230768000, 300000000, by decide, by decide, by decide, by decide⟩]

/-- Rows need not show more milliseconds than those before them. -/
theorem Timeseries.not_rising :
    (((ofStore Archive.store .records 2).perform (.ofStarts Instant.twoOfMilli)).value =
        .ok [⟨-1000, [1, 0, 0, 0, 0]⟩, ⟨-1000, [1, 0, 0, 0, 0]⟩] ∧
      ¬Rising [⟨-1000, [1, 0, 0, 0, 0]⟩, ⟨-1000, [1, 0, 0, 0, 0]⟩]) ∧
    ((ofStore Archive.store .records 2).perform (.ofStarts Instant.leapAndAfter)).value =
        .ok [⟨1230768000500, [1, 0, 0, 0, 0]⟩, ⟨1230768000300, [1, 0, 0, 0, 0]⟩] ∧
      ¬Rising [⟨1230768000500, [1, 0, 0, 0, 0]⟩, ⟨1230768000300, [1, 0, 0, 0, 0]⟩] := by
  refine ⟨⟨?_, by decide⟩, ?_, by decide⟩
  · rw [ofStore_of_pairwise (by decide) (by decide)]
    decide
  · rw [ofStore_of_pairwise (by decide) (by decide)]
    decide

end NetAudit
