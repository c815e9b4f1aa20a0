import Mathlib.Data.List.Forall2
import Mathlib.Data.List.Induction
import NetAudit.Dashboard.Timeseries
import NetAudit.Proofs.Counts
import NetAudit.Proofs.Lists
import NetAudit.Store.Archive

/-!
# Rows of a time series

A time series has a row for each start of a window among the summaries that it takes in, and a
column has the sum over those of its kind (`Timeseries.rows_eq`). Summaries are taken in by the
starts of their windows. So a lower limit cuts off rows at the end, and of the last row that is left
it may cut off some summaries (`Timeseries.Front`).
-/

namespace NetAudit

open Calendar (Instant)

namespace Timeseries

variable {metric : Metric} {ss rest : List Summary} {start : Instant} {k : Kind}

/-- What the summaries of one window and kind have counted. -/
def valuesAt (metric : Metric) (ss : List Summary) (start : Instant) (k : Kind) : List Nat :=
  (ss.filter fun s => s.windowStart = some start ∧ s.kind = k).map metric.value

/-! ## Points

A point is kept for each start of a window, with a number for each kind. One more summary changes
one number. -/

/-- The count of a point for a kind. -/
def count (p : TimeseriesPoints) (start : Instant) (k : Kind) : Nat :=
  ((p.find? start).bind fun kinds => kinds.find? k).getD 0

theorem contains_addSummary (metric : Metric) (p : TimeseriesPoints) (s : Summary)
    (start : Instant) : (addSummary metric p s).contains start = true ↔
      s.windowStart = some start ∨ p.contains start = true := by
  unfold addSummary
  cases s.windowStart with
  | none => simp
  | some w =>
      show (p.insert w _).contains start = true ↔ _
      rw [OrderedMap.contains_insert, Bool.or_eq_true, beq_iff_eq, Option.some.injEq, eq_comm]

theorem count_addSummary (metric : Metric) (p : TimeseriesPoints) (s : Summary) (start : Instant)
    (k : Kind) : count (addSummary metric p s) start k =
      if s.windowStart = some start ∧ s.kind = k then
        countSum [count p start k, metric.value s] else count p start k := by
  unfold addSummary count
  cases s.windowStart with
  | none => simp
  | some w =>
      rw [OrderedMap.find?_update]
      by_cases hstart : start = w
      · subst hstart
        rw [if_pos rfl, Option.bind_some, OrderedMap.find?_update]
        by_cases hkind : k = s.kind
        · subst hkind
          rw [if_pos rfl, if_pos ⟨rfl, rfl⟩]
          cases p.find? start <;> rfl
        · rw [if_neg hkind, if_neg fun h => hkind h.2.symm]
          cases p.find? start <;> rfl
      · rw [if_neg hstart, if_neg fun h => hstart (Option.some.inj h.1).symm]

theorem points_concat (metric : Metric) (ss : List Summary) (s : Summary) :
    points metric (ss ++ [s]) = addSummary metric (points metric ss) s := by
  rw [points, List.foldl_append]
  rfl

/-- There is a point for each window of a summary. -/
theorem mem_keys_points_iff :
    start ∈ (points metric ss).keys ↔ ∃ s ∈ ss, s.windowStart = some start := by
  rw [OrderedMap.mem_keys_iff]
  induction ss using List.reverseRecOn with
  | nil => simp [points, OrderedMap.contains]
  | append_singleton ss s ih =>
      rw [points_concat, contains_addSummary, ih, or_comm]
      simp [or_and_right, exists_or]

/-- A point has counted the summaries of its window. -/
theorem count_points (metric : Metric) (ss : List Summary) (start : Instant) (k : Kind) :
    count (points metric ss) start k = countSum (valuesAt metric ss start k) := by
  unfold valuesAt
  induction ss using List.reverseRecOn with
  | nil => rfl
  | append_singleton ss s ih =>
      rw [points_concat, count_addSummary, ih, List.filter_append, List.map_append]
      by_cases hplace : s.windowStart = some start ∧ s.kind = k
      · rw [if_pos hplace, List.filter_singleton, decide_eq_true hplace, countSum_concat]
        rfl
      · rw [if_neg hplace, List.filter_singleton, decide_eq_false hplace]
        simp

/-! ## Rows

A row is a point that is read off kind by kind. -/

/-- The row of a window. -/
def rowAt (metric : Metric) (ss : List Summary) (start : Instant) : TimeseriesRow :=
  ⟨start.millis, Kind.validated.map fun k => countSum (valuesAt metric ss start k)⟩

/-- The rows of some summaries. -/
def rows (metric : Metric) (ss : List Summary) : List TimeseriesRow :=
  (points metric ss).toList.map fun e => row e.1 e.2

theorem rows_eq (metric : Metric) (ss : List Summary) :
    rows metric ss = (points metric ss).keys.map (rowAt metric ss) := by
  unfold rows OrderedMap.keys
  rw [List.map_map]
  apply List.map_congr_left
  rintro ⟨start, kinds⟩ hmem
  have hfind : (points metric ss).find? start = some kinds :=
    (OrderedMap.find?_eq_some_iff _ _ _).2 hmem
  show row start kinds = rowAt metric ss start
  unfold row rowAt
  congr 1
  apply List.map_congr_left
  intro k _
  rw [← count_points, count, hfind]
  rfl

/-! ## Limits

Summaries come in the order of the starts of their windows. What a limit cuts off has no earlier
start than what is left, so it can only add to the last row, or add rows behind it. -/

/-- Summaries come by the starts of their windows, those without a window first. -/
def InOrder (ss : List Summary) : Prop :=
  ss.Pairwise fun s t => (compare s.windowStart t.windowStart).isLE = true

/-- Sums over the summaries of one window and kind do not need more than 64 bits. -/
def Fits (metric : Metric) (ss : List Summary) : Prop :=
  ∀ start, ∀ k ∈ Kind.validated, Number.total (valuesAt metric ss start k) < Number.countBound

/-- The rows `few` are the first of the rows `many`, but the last of them may have counted less. -/
structure Front (few many : List TimeseriesRow) : Prop where
  front : few.dropLast <+: many
  last : ∀ row ∈ few.getLast?, ∃ full, many[few.length - 1]? = some full ∧
    full.millis = row.millis ∧ List.Forall₂ (· ≤ ·) row.values full.values

theorem valuesAt_append (metric : Metric) (ss rest : List Summary) (start : Instant) (k : Kind) :
    valuesAt metric (ss ++ rest) start k =
      valuesAt metric ss start k ++ valuesAt metric rest start k := by
  unfold valuesAt
  rw [List.filter_append, List.map_append]

/-- Summaries that come later have no earlier windows. -/
theorem InOrder.isLE (h : InOrder (ss ++ rest)) {w u : Instant}
    (hw : w ∈ (points metric ss).keys) (hu : ∃ r ∈ rest, r.windowStart = some u) :
    (compare w u).isLE = true := by
  obtain ⟨s, hs, hw⟩ := mem_keys_points_iff.1 hw
  obtain ⟨r, hr, hu⟩ := hu
  have hle := (List.pairwise_append.1 h).2.2 s hs r hr
  rwa [hw, hu] at hle

/-- Summaries that come later have no row in front of the rows that are there. -/
theorem InOrder.keys_front (h : InOrder (ss ++ rest)) :
    (points metric ss).keys <+: (points metric (ss ++ rest)).keys := by
  refine prefix_of_pairwise (fun _ _ => Std.OrientedCmp.not_lt_of_lt)
    (points metric ss).pairwise_keys (points metric (ss ++ rest)).pairwise_keys ?_ ?_
  · intro w hw
    obtain ⟨s, hs, hw⟩ := mem_keys_points_iff.1 hw
    exact mem_keys_points_iff.2 ⟨s, List.mem_append_left _ hs, hw⟩
  · intro u hu hnew w hw
    obtain ⟨r, hr, hur⟩ := mem_keys_points_iff.1 hu
    have hrest : r ∈ rest :=
      (List.mem_append.1 hr).resolve_left fun hold => hnew (mem_keys_points_iff.2 ⟨r, hold, hur⟩)
    have hle := h.isLE hw ⟨r, hrest, hur⟩
    cases hc : compare w u with
    | lt => rfl
    | eq => exact absurd (Std.LawfulEqCmp.eq_of_compare hc ▸ hw) hnew
    | gt => simp [hc] at hle

/-- A window that is not the last one has all its summaries. -/
theorem rowAt_append_of_lt (h : InOrder (ss ++ rest)) {w u : Instant}
    (hu : u ∈ (points metric ss).keys) (hlt : compare w u = .lt) :
    rowAt metric (ss ++ rest) w = rowAt metric ss w := by
  have hnone : ∀ k, valuesAt metric rest w k = [] := by
    intro k
    unfold valuesAt
    rw [List.map_eq_nil_iff, List.filter_eq_nil_iff]
    rintro r hr hw
    have hle := h.isLE hu ⟨r, hr, (of_decide_eq_true hw).1⟩
    rw [Std.OrientedCmp.gt_iff_lt.2 hlt] at hle
    cases hle
  unfold rowAt
  simp only [valuesAt_append, hnone, List.append_nil]

/-- A row has not counted more than one of the same window with more summaries. -/
theorem values_rowAt_le (hfits : Fits metric (ss ++ rest)) (start : Instant) :
    List.Forall₂ (· ≤ ·) (rowAt metric ss start).values
      (rowAt metric (ss ++ rest) start).values := by
  unfold rowAt
  rw [List.forall₂_map_left_iff, List.forall₂_map_right_iff, List.forall₂_same]
  intro k hk
  have hbound := hfits start k hk
  have hle : Number.total (valuesAt metric ss start k) ≤
      Number.total (valuesAt metric (ss ++ rest) start k) := by
    rw [valuesAt_append, Number.total_append]
    exact Nat.le_add_right _ _
  unfold countSum
  rwa [Nat.mod_eq_of_lt hbound, Nat.mod_eq_of_lt (Nat.lt_of_le_of_lt hle hbound)]

/-- **More summaries behind those that are there** add rows at the end, and may add to the last
one. -/
theorem rows_front (h : InOrder (ss ++ rest)) (hfits : Fits metric (ss ++ rest)) :
    Front (rows metric ss) (rows metric (ss ++ rest)) := by
  obtain ⟨more, hkeys⟩ : (points metric ss).keys <+: (points metric (ss ++ rest)).keys :=
    h.keys_front
  rw [rows_eq, rows_eq, ← hkeys]
  rcases List.eq_nil_or_concat (points metric ss).keys with hnil | ⟨first, u, hlast⟩
  · rw [hnil]
    exact ⟨List.nil_prefix, fun row hrow => nomatch hrow⟩
  · have hu : u ∈ (points metric ss).keys := by simp [hlast]
    -- The windows in front of the last one have all their summaries already.
    have hsame : first.map (rowAt metric ss) = first.map (rowAt metric (ss ++ rest)) := by
      apply List.map_congr_left
      intro w hw
      have hascending := (points metric ss).pairwise_keys
      rw [hlast, List.concat_eq_append, List.pairwise_append] at hascending
      exact (rowAt_append_of_lt h hu (hascending.2.2 w hw u (List.mem_singleton_self u))).symm
    rw [hlast, List.concat_eq_append, List.map_append, List.map_append, List.map_append, hsame]
    constructor
    · rw [List.map_singleton, List.dropLast_concat, List.append_assoc]
      exact List.prefix_append _ _
    · intro row hrow
      refine ⟨rowAt metric (ss ++ rest) u, ?_, ?_, ?_⟩
      · simp
      all_goals
        obtain rfl : row = rowAt metric ss u := by simpa [eq_comm] using hrow
      · rfl
      · exact values_rowAt_le hfits u

/-! ## The series of an archive

An archive sorts its summaries by start and hands out the first ones. -/

/-- The rows are those of all windows of the summaries `ss`, by ascending start, each with the sums
over all summaries of the window. -/
def Covers (metric : Metric) (ss : List Summary) (rows : List TimeseriesRow) : Prop :=
  ∃ starts : List Instant, starts.Pairwise (fun w u => compare w u = .lt) ∧
    (∀ start, start ∈ starts ↔ ∃ s ∈ ss, s.windowStart = some start) ∧
    rows = starts.map fun start =>
      ⟨start.millis, Kind.validated.map fun k => Number.total (valuesAt metric ss start k)⟩

/-- The rows cover all summaries, in whatever order these are added up. -/
theorem rows_covers {all : List Summary} (hperm : ss.Perm all) (hfits : Fits metric ss) :
    Covers metric all (rows metric ss) := by
  refine ⟨(points metric ss).keys, (points metric ss).pairwise_keys, fun start => ?_, ?_⟩
  · simp only [mem_keys_points_iff, hperm.mem_iff]
  · rw [rows_eq]
    apply List.map_congr_left
    intro start _
    unfold rowAt
    congr 1
    apply List.map_congr_left
    intro k hk
    rw [countSum, Nat.mod_eq_of_lt (hfits start k hk)]
    exact Number.total_perm ((hperm.filter _).map _)

theorem isLE_total (x y : Option Instant) :
    ((compare x y).isLE || (compare y x).isLE) = true := by
  have hswap : compare y x = (compare x y).swap := Std.OrientedCmp.eq_swap
  rw [hswap]
  cases compare x y <;> rfl

theorem inOrder_summariesByStart (a : Archive) : InOrder (a.summariesByStart.map Stored.value) := by
  have hsorted : a.summariesByStart.Pairwise fun x y =>
      (compare x.value.windowStart y.value.windowStart).isLE = true :=
    List.pairwise_mergeSort (fun _ _ _ => Std.TransCmp.isLE_trans) (fun _ _ => isLE_total _ _) _
  exact List.pairwise_map.2 hsorted

/-- Sums fit if all counts together do. -/
theorem fits_summariesByStart {a : Archive}
    (h : Number.total (a.summaries.map fun row => metric.value row.value) < Number.countBound)
    (m : Nat) : Fits metric ((a.summariesByStart.take m).map Stored.value) := by
  intro start k _
  have hperm : a.summariesByStart.Perm a.summaries := List.mergeSort_perm _ _
  have hsub : (valuesAt metric ((a.summariesByStart.take m).map Stored.value) start k).Sublist
      (a.summariesByStart.map fun row => metric.value row.value) := by
    have hfront : (valuesAt metric ((a.summariesByStart.take m).map Stored.value) start k).Sublist
        (((a.summariesByStart.take m).map Stored.value).map metric.value) :=
      List.filter_sublist.map _
    rw [List.map_map] at hfront
    exact hfront.trans ((List.take_sublist m a.summariesByStart).map _)
  calc Number.total (valuesAt metric ((a.summariesByStart.take m).map Stored.value) start k)
      ≤ Number.total (a.summariesByStart.map fun row => metric.value row.value) :=
        Number.total_le_of_sublist hsub
    _ = Number.total (a.summaries.map fun row => metric.value row.value) :=
        Number.total_perm (hperm.map _)
    _ < Number.countBound := h

/-- **A limit shortens the series of an archive**, and only its last row may be understated. With a
limit that takes in all summaries, the series is complete. -/
theorem ofStore_limited (a : Archive) (metric : Metric) {n m : Nat} (hnm : n ≤ m)
    (hfits : Fits metric ((a.summariesByStart.take m).map Stored.value)) :
    ∃ few many, ((ofStore Archive.store metric n).perform a).value = .ok few ∧
      ((ofStore Archive.store metric m).perform a).value = .ok many ∧ Front few many ∧
        (a.summaries.length ≤ m → Covers metric (a.summaries.map Stored.value) many) := by
  have hperm : a.summariesByStart.Perm a.summaries := List.mergeSort_perm _ _
  refine ⟨rows metric ((a.summariesByStart.take n).map Stored.value),
    rows metric ((a.summariesByStart.take m).map Stored.value), rfl, rfl, ?_, ?_⟩
  · have htake : a.summariesByStart.take m =
        a.summariesByStart.take n ++ (a.summariesByStart.drop n).take (m - n) := by
      rw [← List.take_add, Nat.add_sub_cancel' hnm]
    have horder : InOrder ((a.summariesByStart.take m).map Stored.value) :=
      (inOrder_summariesByStart a).sublist ((List.take_sublist m _).map _)
    rw [htake, List.map_append] at horder hfits ⊢
    exact rows_front horder hfits
  · intro hall
    rw [List.take_of_length_le (hperm.length_eq ▸ hall)] at hfits ⊢
    exact rows_covers (hperm.map _) hfits

end Timeseries

/-- Two runs have counted pings of one window, and one has no window. -/
def Archive.ofTwoCounts : Archive :=
  { empty 0 with
    summaries := [
      ⟨.nth 0 0, { Summary.new .ping with windowStart := some .epoch, recordCount := 3 }⟩,
      ⟨.nth 0 1, { Summary.new .ping with recordCount := 5 }⟩,
      ⟨.nth 0 2, { Summary.new .ping with windowStart := some .epoch, recordCount := 4 }⟩] }

theorem Timeseries.ofStore_limited_ofTwoCounts :
    let a := Archive.ofTwoCounts
    ∃ few many, ((ofStore Archive.store .records 2).perform a).value = .ok few ∧
      ((ofStore Archive.store .records 3).perform a).value = .ok many ∧ Front few many ∧
        (a.summaries.length ≤ 3 →
          Covers .records (a.summaries.map Stored.value) many) :=
  ofStore_limited .ofTwoCounts .records (by decide) (fits_summariesByStart (by decide) 3)

/-- The lower limit counts one of the two runs. -/
example : ((Timeseries.ofStore Archive.store .records 2).perform .ofTwoCounts).value =
    .ok [⟨0, [3, 0, 0, 0, 0]⟩] := by cbv

end NetAudit
