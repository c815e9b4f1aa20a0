import NetAudit.Proofs.OrderedMap
import NetAudit.Summary

/-!
# What is counted by name

Counts are filled one name at a time. A name that was never counted has no count, and any other has
the number of times it was.
-/

namespace NetAudit

namespace Number

/-- A sum does not depend on the order. -/
theorem total_perm {ns ms : List Nat} (h : ns.Perm ms) : total ns = total ms := by
  induction h with
  | nil => rfl
  | cons n _ ih => rw [total, total, ih]
  | swap n m ns => rw [total, total, total, total, Nat.add_left_comm]
  | trans _ _ ih₁ ih₂ => exact ih₁.trans ih₂

theorem total_append (ns ms : List Nat) : total (ns ++ ms) = total ns + total ms := by
  induction ns with
  | nil => exact (Nat.zero_add _).symm
  | cons n ns ih => rw [List.cons_append, total, total, ih, Nat.add_assoc]

theorem total_le_of_sublist {ns ms : List Nat} (h : ns.Sublist ms) : total ns ≤ total ms := by
  induction h with
  | slnil => exact Nat.le_refl _
  | cons m _ ih => exact Nat.le_trans ih (Nat.le_add_left _ m)
  | cons_cons m _ ih => exact Nat.add_le_add_left ih m

/-- The length of lists in a row is the sum of their lengths. -/
theorem length_flatMap {α β : Type} (f : α → List β) (as : List α) :
    (as.flatMap f).length = total (as.map fun a => (f a).length) := by
  induction as with
  | nil => rfl
  | cons a as ih =>
      rw [List.flatMap_cons, List.length_append, ih, List.map_cons, total]

end Number

/-- A sum in 64 bits can be taken one number at a time. -/
theorem countSum_concat (ns : List Nat) (n : Nat) :
    countSum [countSum ns, n] = countSum (ns ++ [n]) := by
  unfold countSum
  rw [Number.total_append]
  simp only [Number.total]
  rw [Nat.add_zero, Nat.mod_add_mod]

/-- What is sorted by distinct keys is still all there. -/
theorem flatMap_filter_perm {α κ : Type} [DecidableEq κ] {key : α → κ} {ks : List κ}
    (hks : ks.Nodup) {xs : List α} (h : ∀ x ∈ xs, key x ∈ ks) :
    (ks.flatMap fun k => xs.filter fun x => key x = k).Perm xs := by
  induction ks generalizing xs with
  | nil =>
      have hnil : xs = [] := List.eq_nil_iff_forall_not_mem.2 fun x hx => List.not_mem_nil (h x hx)
      rw [hnil]
      exact .refl _
  | cons k ks ih =>
      obtain ⟨hk, hks⟩ := List.nodup_cons.1 hks
      have hothers : ∀ x ∈ xs.filter (fun x => !decide (key x = k)), key x ∈ ks := by
        intro x hx
        obtain ⟨hx, hne⟩ := List.mem_filter.1 hx
        have hne : key x ≠ k := by simpa using hne
        exact (List.mem_cons.1 (h x hx)).resolve_left hne
      -- The other keys find nothing under `k`.
      have hsame : (ks.flatMap fun j => xs.filter fun x => key x = j) =
          ks.flatMap fun j =>
            (xs.filter fun x => !decide (key x = k)).filter fun x => key x = j := by
        rw [List.flatMap_def, List.flatMap_def]
        congr 1
        apply List.map_congr_left
        intro j hj
        rw [List.filter_filter]
        apply List.filter_congr
        intro x _
        by_cases hx : key x = j
        · have hne : j ≠ k := fun heq => hk (heq ▸ hj)
          simp [hx, hne]
        · simp [hx]
      rw [List.flatMap_cons, hsame]
      exact ((ih hks hothers).append_left _).trans
        (List.filter_append_perm (fun x => decide (key x = k)) xs)

namespace Counts

/-! ## Counting

Each name that is met adds one to its own count, so the count of a name is the number of times that
it stands in the list. -/

theorem find?_bump (counts : Counts) (name tag : String) :
    (counts.bump name).find? tag =
      if tag = name then some ((counts.find? name).getD 0 + 1) else counts.find? tag :=
  OrderedMap.find?_update counts name tag _

theorem find?_foldl_bump (counts : Counts) (names : List String) (tag : String) :
    (names.foldl bump counts).find? tag =
      if tag ∈ names then some ((counts.find? tag).getD 0 + names.count tag)
      else counts.find? tag := by
  induction names generalizing counts with
  | nil => simp
  | cons name names ih =>
      rw [List.foldl_cons, ih, find?_bump, List.count_cons]
      by_cases hname : tag = name
      · subst hname
        by_cases hmem : tag ∈ names
        · simp [hmem]
          omega
        · simp [hmem, List.count_eq_zero_of_not_mem hmem]
      · have hne : (name == tag) = false := by simpa using fun h => hname h.symm
        simp [hname, hne]

/-- The counts of names. -/
def ofNames (names : List String) : Counts := names.foldl bump .empty

/-- **A name that was counted has the number of times it was**, and no other name has a count. -/
theorem find?_ofNames (names : List String) (tag : String) :
    (ofNames names).find? tag = if tag ∈ names then some (names.count tag) else none := by
  have hempty : (OrderedMap.empty : Counts).find? tag = none := rfl
  rw [ofNames, find?_foldl_bump, hempty, Option.getD_none, Nat.zero_add]

end Counts

end NetAudit
