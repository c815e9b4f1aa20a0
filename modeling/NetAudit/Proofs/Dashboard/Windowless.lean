import NetAudit.Proofs.Dashboard.Series

/-!
# Summaries without a window

A time series counts summaries with a window only. But its limit is one on all summaries, and those
without a window are sorted to the front (`Timeseries.ofStore_eq`). So each of them takes the place
of one that would be counted (`Timeseries.ofStore_storeAll`).
-/

namespace NetAudit

/-- The window of the summary was noted. -/
def Summary.hasWindow (s : Summary) : Bool := s.windowStart.isSome

namespace Archive

/-- The archive after summaries were stored, one after the other. -/
def storeAll (a : Archive) (ss : List Summary) : Archive :=
  ss.foldl (fun a s => (store.persistSummary s a).2) a

theorem values_storeAll (a : Archive) (ss : List Summary) :
    (a.storeAll ss).summaries.map Stored.value = a.summaries.map Stored.value ++ ss := by
  induction ss generalizing a with
  | nil => exact (List.append_nil _).symm
  | cons s ss ih =>
      have hfirst : (store.persistSummary s a).2.summaries.map Stored.value =
          a.summaries.map Stored.value ++ [s] := List.map_append
      have hrest : (a.storeAll (s :: ss)).summaries.map Stored.value =
          (store.persistSummary s a).2.summaries.map Stored.value ++ ss := ih _
      rw [hrest, hfirst, List.append_assoc, List.singleton_append]

end Archive

namespace Timeseries

variable {ss : List Summary}

/-! ## What is counted under a limit

The limit is applied to the sorted list, where the summaries without a window stand in front. -/

/-- The order in which summaries are taken in. -/
def startsFirst (s t : Summary) : Bool := (compare s.windowStart t.windowStart).isLE

theorem values_summariesByStart (a : Archive) :
    a.summariesByStart.map Stored.value = (a.summaries.map Stored.value).mergeSort startsFirst :=
  List.map_mergeSort fun _ _ _ _ => rfl

/-- The summaries with a window, in the order in which they are counted. -/
def windowed (ss : List Summary) : List Summary :=
  (ss.filter Summary.hasWindow).mergeSort startsFirst

/-- The number of summaries without a window. -/
def windowless (ss : List Summary) : Nat := ss.countP fun s => !s.hasWindow

theorem filter_summariesByStart (a : Archive) :
    (a.summariesByStart.map Stored.value).filter Summary.hasWindow =
      windowed (a.summaries.map Stored.value) := by
  rw [values_summariesByStart]
  exact filter_mergeSort (fun _ _ _ => Std.TransCmp.isLE_trans) (fun _ _ => isLE_total _ _) _ _

/-- Summaries without a window leave no trace in the points. -/
theorem rows_filter (metric : Metric) (ss : List Summary) :
    rows metric (ss.filter Summary.hasWindow) = rows metric ss := by
  have hpoints : points metric (ss.filter Summary.hasWindow) = points metric ss := by
    unfold points
    rw [List.foldl_filter]
    congr 1
    funext p s
    unfold addSummary Summary.hasWindow
    cases s.windowStart <;> rfl
  unfold rows
  rw [hpoints]

/-- Behind a summary with a window there are only such. -/
theorem InOrder.hasWindow (h : InOrder ss) :
    ss.Pairwise fun s t => s.hasWindow = true → t.hasWindow = true := by
  refine h.imp fun {s t} hle hs => ?_
  unfold Summary.hasWindow at hs ⊢
  cases hfirst : s.windowStart with
  | none => simp [hfirst] at hs
  | some w =>
      cases hsecond : t.windowStart with
      | some u => rfl
      | none =>
          rw [hfirst, hsecond] at hle
          cases hle

/-- **A series counts the first summaries with a window**, as many of them as the limit leaves after
all summaries without one. -/
theorem ofStore_eq (a : Archive) (metric : Metric) (limit : Nat) :
    ((ofStore Archive.store metric limit).perform a).value =
      .ok (rows metric ((windowed (a.summaries.map Stored.value)).take
        (limit - windowless (a.summaries.map Stored.value)))) := by
  have hperform : ((ofStore Archive.store metric limit).perform a).value =
      .ok (rows metric ((a.summariesByStart.take limit).map Stored.value)) := rfl
  have hperm : (a.summariesByStart.map Stored.value).Perm (a.summaries.map Stored.value) :=
    (List.mergeSort_perm _ _).map _
  rw [hperform, ← rows_filter, List.map_take,
    filter_take_of_pairwise (inOrder_summariesByStart a).hasWindow, filter_summariesByStart,
    hperm.countP_eq]
  rfl

/-- Summaries that are stored in the order of their windows are counted as they stand. -/
theorem ofStore_of_pairwise {a : Archive}
    (hwindow : ∀ s ∈ a.summaries.map Stored.value, s.hasWindow)
    (horder : (a.summaries.map Stored.value).Pairwise fun s t => startsFirst s t)
    (metric : Metric) (limit : Nat) :
    ((ofStore Archive.store metric limit).perform a).value =
      .ok (rows metric ((a.summaries.map Stored.value).take limit)) := by
  have hwindowed : windowed (a.summaries.map Stored.value) = a.summaries.map Stored.value := by
    unfold windowed
    rw [List.filter_eq_self.2 hwindow, List.mergeSort_of_pairwise horder]
  have hwindowless : windowless (a.summaries.map Stored.value) = 0 :=
    List.countP_eq_zero.2 fun s hs => by simp [hwindow s hs]
  rw [ofStore_eq, hwindowed, hwindowless, Nat.sub_zero]

/-! ## More summaries without a window

Further summaries without a window are counted nowhere. They make no difference if the limit has
room for all summaries, or for none that is counted (`Timeseries.Spares`). -/

theorem windowed_append (hss : ∀ s ∈ ss, s.windowStart = none) (xs : List Summary) :
    windowed (xs ++ ss) = windowed xs := by
  have hnone : ss.filter Summary.hasWindow = [] :=
    List.filter_eq_nil_iff.2 fun s hs => by simp [Summary.hasWindow, hss s hs]
  unfold windowed
  rw [List.filter_append, hnone, List.append_nil]

theorem windowless_append (hss : ∀ s ∈ ss, s.windowStart = none) (xs : List Summary) :
    windowless (xs ++ ss) = windowless xs + ss.length := by
  have hall : ss.countP (fun s => !s.hasWindow) = ss.length :=
    List.countP_eq_length.2 fun s hs => by simp [Summary.hasWindow, hss s hs]
  unfold windowless
  rw [List.countP_append, hall]

theorem length_windowed (ss : List Summary) : (windowed ss).length + windowless ss = ss.length := by
  unfold windowed windowless
  rw [List.length_mergeSort, ← List.countP_eq_length_filter]
  simpa using (List.length_eq_countP_add_countP Summary.hasWindow).symm

/-- The limit takes in all summaries, with `more` that are added, or it takes in none that has a
window. -/
def Spares (a : Archive) (limit more : Nat) : Prop :=
  a.summaries.length + more ≤ limit ∨ limit ≤ windowless (a.summaries.map Stored.value)

/-- **Summaries without a window are not counted, but each lowers the limit by one.** They make no
difference if all summaries with a window have their places still, or had none before. -/
theorem ofStore_storeAll (a : Archive) (metric : Metric) (limit : Nat)
    (hss : ∀ s ∈ ss, s.windowStart = none) :
    ∃ rows, ((ofStore Archive.store metric limit).perform (a.storeAll ss)).value = .ok rows ∧
      ((ofStore Archive.store metric (limit - ss.length)).perform a).value = .ok rows ∧
      (Spares a limit ss.length →
        ((ofStore Archive.store metric limit).perform a).value = .ok rows) := by
  rw [ofStore_eq (a.storeAll ss), a.values_storeAll, windowed_append hss, windowless_append hss]
  refine ⟨_, rfl, ?_, ?_⟩
  · rw [ofStore_eq, Nat.sub_sub, Nat.add_comm ss.length]
  · have hlength := length_windowed (a.summaries.map Stored.value)
    rw [List.length_map] at hlength
    rw [ofStore_eq]
    rintro (hall | hnone)
    · rw [List.take_of_length_le (by omega), List.take_of_length_le (by omega)]
    · rw [Nat.sub_eq_zero_of_le hnone, Nat.sub_eq_zero_of_le (by omega)]

end Timeseries

/-- A run has counted pings of one window. -/
def Archive.ofOneCount : Archive :=
  (empty 0).storeAll [{ Summary.new .ping with windowStart := some .epoch, recordCount := 3 }]

theorem Timeseries.ofStore_storeAll_ofOneCount :
    (∀ s ∈ [Summary.new .ping, Summary.unknown .rrc], s.windowStart = none) ∧
      Spares .ofOneCount 3 2 ∧
      ∃ rows, ((ofStore Archive.store .records 3).perform
          (Archive.ofOneCount.storeAll [.new .ping, .unknown .rrc])).value = .ok rows ∧
        ((ofStore Archive.store .records (3 - 2)).perform .ofOneCount).value = .ok rows ∧
        ((ofStore Archive.store .records 3).perform .ofOneCount).value = .ok rows := by
  have hnone : ∀ s ∈ [Summary.new .ping, Summary.unknown .rrc], s.windowStart = none := by decide
  have hspares : Spares .ofOneCount 3 2 := .inl (by decide)
  obtain ⟨rows, hafter, hbefore, hsame⟩ := ofStore_storeAll .ofOneCount .records 3 hnone
  exact ⟨hnone, hspares, rows, hafter, hbefore, hsame hspares⟩

/-- A summary without a window takes the only place. -/
theorem Timeseries.ofStore_displaces :
    (Summary.new .ping).windowStart = none ∧
      ((ofStore Archive.store .records 1).perform .ofOneCount).value =
        .ok [⟨0, [3, 0, 0, 0, 0]⟩] ∧
      ((ofStore Archive.store .records 1).perform
        (Archive.ofOneCount.storeAll [.new .ping])).value = .ok [] := by
  refine ⟨rfl, ?_, ?_⟩
  · rw [ofStore_of_pairwise (by decide) (by decide)]
    decide
  · have hnone : ∀ s ∈ [Summary.new .ping], s.windowStart = none := by decide
    rw [ofStore_eq, Archive.values_storeAll, windowless_append hnone, List.length_singleton,
      Nat.sub_eq_zero_of_le (Nat.le_add_left _ _)]
    rfl

end NetAudit
