import Mathlib.Data.List.Nodup
import Mathlib.Data.List.Perm.Basic

/-!
# Repetitions, stable sorts and the fronts of sorted lists

Things that are done to lists before they are shown: what was there before is left out
(`List.eraseDups`), items are sorted and some of them wanted only (`filter_mergeSort`), and what is
sorted is cut off at some length.
-/

namespace NetAudit

variable {α : Type}

/-! ## Repetitions

Of each item the first occurrence stays. So what is put behind a list and stands in it already makes
no difference. -/

section Repetitions

variable [DecidableEq α]

/-- Without repetitions, nothing stands twice. -/
theorem nodup_eraseDups : ∀ xs : List α, xs.eraseDups.Nodup
  | [] => by simp
  | x :: xs => by
    rw [List.eraseDups_cons, List.nodup_cons, List.mem_eraseDups]
    exact ⟨by simp, nodup_eraseDups _⟩
  termination_by xs => xs.length
  decreasing_by exact Nat.lt_succ_of_le (List.length_filter_le _ _)

/-- One more at the end is left out if it was there before. -/
theorem eraseDups_concat (xs : List α) (x : α) :
    (xs ++ [x]).eraseDups = if x ∈ xs then xs.eraseDups else xs.eraseDups ++ [x] := by
  rw [List.eraseDups_append]
  by_cases h : x ∈ xs <;> simp [List.removeAll, h, List.eraseDups_cons]

/-- In another order, the same are told apart. -/
theorem eraseDups_perm {xs ys : List α} (h : xs.Perm ys) : xs.eraseDups.Perm ys.eraseDups := by
  rw [List.perm_ext_iff_of_nodup (nodup_eraseDups xs) (nodup_eraseDups ys)]
  intro x
  rw [List.mem_eraseDups, List.mem_eraseDups, h.mem_iff]

/-- What has appeared before adds nothing to what is told apart. -/
theorem eraseDups_take_append {xs ys : List α} (h : ys ⊆ xs) (n : Nat) :
    ((xs ++ ys).take n).eraseDups = (xs.take n).eraseDups := by
  rw [List.take_append]
  by_cases hn : n ≤ xs.length
  · rw [Nat.sub_eq_zero_of_le hn, List.take_zero, List.append_nil]
  · rw [List.take_of_length_le (Nat.le_of_not_le hn), List.eraseDups_append]
    have hnone : (ys.take (n - xs.length)).removeAll xs = [] := by
      apply List.filter_eq_nil_iff.2
      intro y hy
      simpa using h (List.mem_of_mem_take hy)
    rw [hnone, List.eraseDups_nil, List.append_nil]

end Repetitions

/-! ## Stable sorts

A stable sort keeps the order of equal items. So it makes no difference whether items are picked out
before they are sorted or after that. -/

/-- Where one list ends and another begins is told by what the items are. -/
theorem append_inj_of_forall {p : α → Bool} {xs ys zs ws : List α} (h : xs ++ ys = zs ++ ws)
    (hxs : ∀ x ∈ xs, p x = false) (hys : ∀ y ∈ ys, p y = true) (hzs : ∀ z ∈ zs, p z = false)
    (hws : ∀ w ∈ ws, p w = true) : xs = zs ∧ ys = ws := by
  have hnone : ∀ {as : List α}, (∀ a ∈ as, p a = false) → as.filter p = [] := fun has =>
    List.filter_eq_nil_iff.2 fun a ha => by simp [has a ha]
  have hback := congrArg (List.filter p) h
  rw [List.filter_append, List.filter_append, hnone hxs, hnone hzs, List.filter_eq_self.2 hys,
    List.filter_eq_self.2 hws, List.nil_append, List.nil_append] at hback
  exact ⟨List.append_cancel_right (hback ▸ h), hback⟩

section StableSorts

variable {le : α → α → Bool} (htrans : ∀ a b c, le a b → le b c → le a c)
  (htotal : ∀ a b, (le a b || le b a) = true)

include htrans htotal

/-- One more item in front is put between those that it comes after and those that it comes
before. -/
theorem exists_mergeSort_cons (x : α) (xs : List α) :
    ∃ before after, (x :: xs).mergeSort le = before ++ x :: after ∧
      xs.mergeSort le = before ++ after ∧
      (∀ y ∈ before, le x y = false) ∧ ∀ y ∈ after, le x y = true := by
  obtain ⟨before, after, hsort, hrest, hbefore⟩ := List.mergeSort_cons htrans htotal x xs
  have hsorted := List.pairwise_mergeSort htrans htotal (x :: xs)
  rw [hsort, List.pairwise_append, List.pairwise_cons] at hsorted
  exact ⟨before, after, hsort, hrest, fun y hy => by simpa using hbefore y hy, hsorted.2.1.1⟩

/-- **Some items of a sorted list** stand as if they had been sorted by themselves. -/
theorem filter_mergeSort (p : α → Bool) (xs : List α) :
    (xs.mergeSort le).filter p = (xs.filter p).mergeSort le := by
  induction xs with
  | nil => simp
  | cons x xs ih =>
      obtain ⟨before, after, hsort, hrest, hbefore, hafter⟩ :=
        exists_mergeSort_cons htrans htotal x xs
      rw [hrest, List.filter_append] at ih
      rw [hsort, List.filter_append]
      by_cases hx : p x = true
      · obtain ⟨before', after', hsort', hrest', hbefore', hafter'⟩ :=
          exists_mergeSort_cons htrans htotal x (xs.filter p)
        -- Among the others `x` has one place only, whichever of them are wanted.
        obtain ⟨hfront, hback⟩ := append_inj_of_forall (ih.trans hrest')
          (fun y hy => hbefore y (List.mem_of_mem_filter hy))
          (fun y hy => hafter y (List.mem_of_mem_filter hy)) hbefore' hafter'
        rw [List.filter_cons_of_pos hx, List.filter_cons_of_pos hx, hsort', hfront, hback]
      · rw [List.filter_cons_of_neg hx, List.filter_cons_of_neg hx, ih]

end StableSorts

/-! ## Fronts

In a list that is sorted by a strict order, what stands in front of an item is known from the order
alone. -/

/-- What is cut off from a sorted list comes after all that is left, and that has its full
length. -/
theorem take_of_not_mem {R : α → α → Prop} {xs : List α} (h : xs.Pairwise R) {x : α} (hx : x ∈ xs)
    {n : Nat} (hcut : x ∉ xs.take n) : (xs.take n).length = n ∧ ∀ y ∈ xs.take n, R y x := by
  rw [← List.take_append_drop n xs] at h hx
  have hdrop : x ∈ xs.drop n := (List.mem_append.1 hx).resolve_left hcut
  have hlong := List.length_pos_of_mem hdrop
  rw [List.length_drop] at hlong
  refine ⟨?_, fun y hy => (List.pairwise_append.1 h).2.2 y hy x hdrop⟩
  rw [List.length_take]
  omega

/-- A sorted list is the front of another if all else in the other comes after it. -/
theorem prefix_of_pairwise [DecidableEq α] {R : α → α → Prop} (hasymm : ∀ a b, R a b → ¬R b a)
    {ks js : List α} (hks : ks.Pairwise R) (hjs : js.Pairwise R) (hsub : ks ⊆ js)
    (hafter : ∀ j ∈ js, j ∉ ks → ∀ k ∈ ks, R k j) : ks <+: js := by
  have hnodup : ∀ {xs : List α}, xs.Pairwise R → xs.Nodup := by
    intro xs h
    refine h.imp fun {a b} hab heq => ?_
    subst heq
    exact hasymm a a hab hab
  -- The new items behind the old ones are in order as well, and a list in order is determined by
  -- its members.
  have hsorted : (ks ++ js.filter (· ∉ ks)).Pairwise R := by
    refine List.pairwise_append.2 ⟨hks, hjs.filter _, fun k hk j hj => ?_⟩
    obtain ⟨hj, hnew⟩ := List.mem_filter.1 hj
    exact hafter j hj (of_decide_eq_true hnew) k hk
  have hmem : ∀ a, a ∈ ks ++ js.filter (· ∉ ks) ↔ a ∈ js := by
    intro a
    by_cases ha : a ∈ ks
    · simp [ha, hsub ha]
    · simp [ha]
  exact ⟨js.filter (· ∉ ks), List.Perm.eq_of_pairwise
    (fun a b _ _ hab hba => absurd hba (hasymm a b hab)) hsorted hjs
    ((List.perm_ext_iff_of_nodup (hnodup hsorted) (hnodup hjs)).2 hmem)⟩

/-- Where the items that are wanted stand behind all others, the others take the first places. -/
theorem filter_take_of_pairwise {p : α → Bool} {xs : List α}
    (h : xs.Pairwise fun a b => p a = true → p b = true) (n : Nat) :
    (xs.take n).filter p = (xs.filter p).take (n - xs.countP fun a => !p a) := by
  induction xs generalizing n with
  | nil => simp
  | cons x xs ih =>
      obtain ⟨hfirst, hrest⟩ := List.pairwise_cons.1 h
      by_cases hx : p x = true
      · have hall : ∀ a ∈ x :: xs, p a = true :=
          List.forall_mem_cons.2 ⟨hx, fun a ha => hfirst a ha hx⟩
        have hnone : (x :: xs).countP (fun a => !p a) = 0 :=
          List.countP_eq_zero.2 fun a ha => by simp [hall a ha]
        rw [List.filter_eq_self.2 hall, hnone, Nat.sub_zero]
        exact List.filter_eq_self.2 fun a ha => hall a (List.mem_of_mem_take ha)
      · cases n with
        | zero => simp
        | succ n =>
            rw [List.take_succ_cons, List.filter_cons_of_neg hx, List.filter_cons_of_neg hx,
              ih hrest, List.countP_cons_of_pos (by simpa using hx), Nat.add_sub_add_right]

end NetAudit
