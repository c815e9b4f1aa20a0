import NetAudit.OrderedMap

/-!
# The entries of a map

A map is determined by its look-ups, but sums over its values go through the list of its entries.
These lemmas say how that list changes with a write, up to the order of its entries:

* `toList_insert_perm` — a write adds its entry and takes away that with the same key;
* `toList_insert_of_find?` — a write under a key that is there changes that entry in its place;
* `toList_ofList_perm` — a map that is filled from entries with distinct keys has just those.
-/

namespace NetAudit.OrderedMap

variable {κ ν : Type} [Ord κ]

/-! ## Keys

Keys ascend in a map, so each of them stands in it once. -/

theorem pairwise_keys (m : OrderedMap κ ν) : m.keys.Pairwise fun j k => compare j k = .lt :=
  List.pairwise_map.2 m.ascending

/-- No key stands twice. -/
theorem nodup_keys [Std.TransOrd κ] (m : OrderedMap κ ν) : m.keys.Nodup := by
  apply m.pairwise_keys.imp
  rintro j k hjk rfl
  have hself : compare j j = Ordering.eq := Std.ReflCmp.compare_self
  rw [hself] at hjk
  cases hjk

theorem mem_keys_iff [Std.LawfulEqOrd κ] (m : OrderedMap κ ν) (k : κ) :
    k ∈ m.keys ↔ m.contains k = true := by
  unfold keys contains
  rw [List.mem_map, Option.isSome_iff_exists]
  constructor
  · rintro ⟨⟨j, v⟩, hmem, rfl⟩
    exact ⟨v, (find?_eq_some_iff m j v).2 hmem⟩
  · rintro ⟨v, hv⟩
    exact ⟨(k, v), (find?_eq_some_iff m k v).1 hv, rfl⟩

/-! ## A write

A write goes through the entries to the place of its key. The entries before it and behind it stay
in their order. -/

section Writes

variable [DecidableEq κ] [Std.TransOrd κ] [Std.LawfulEqOrd κ]

theorem find?_update (m : OrderedMap κ ν) (k j : κ) (f : Option ν → ν) :
    (m.update k f).find? j = if j = k then some (f (m.find? k)) else m.find? j :=
  find?_insert m k j _

theorem contains_insert (m : OrderedMap κ ν) (k j : κ) (v : ν) :
    (m.insert k v).contains j = (j == k || m.contains j) := by
  unfold contains
  rw [find?_insert]
  by_cases h : j = k <;> simp [h]

omit [Std.TransOrd κ] in
/-- Entries whose keys all come after `k` have no entry under `k`. -/
private theorem filter_ne_of_lt {k : κ} {es : List (κ × ν)} (h : ∀ e ∈ es, compare k e.1 = .lt) :
    es.filter (fun e => e.1 ≠ k) = es := by
  apply List.filter_eq_self.2
  intro e he
  have hlt := h e he
  have hne : e.1 ≠ k := by
    rintro rfl
    simp at hlt
  simpa using hne

theorem insertEntry_perm (k : κ) (v : ν) :
    ∀ {es : List (κ × ν)}, Ascending es →
      (insertEntry k v es).Perm ((k, v) :: es.filter fun e => e.1 ≠ k)
  | [], _ => .refl _
  | e :: es, h => by
    have hes := List.pairwise_cons.1 h
    rw [insertEntry]
    -- The new entry comes before `e`, in its place, or further on.
    split
    · next hk =>
      have hlt : ∀ d ∈ e :: es, compare k d.1 = .lt := by
        intro d hd
        rcases List.mem_cons.1 hd with rfl | hd
        · exact hk
        · exact Std.TransCmp.lt_trans hk (hes.1 d hd)
      rw [filter_ne_of_lt hlt]
    · next hk =>
      have hke : k = e.1 := Std.LawfulEqCmp.eq_of_compare hk
      have hlt : ∀ d ∈ es, compare k d.1 = .lt := fun d hd => hke ▸ hes.1 d hd
      rw [List.filter_cons_of_neg (by simp [hke]), filter_ne_of_lt hlt]
    · next hk =>
      have hne : e.1 ≠ k := by
        rintro rfl
        simp at hk
      rw [List.filter_cons_of_pos (by simpa using hne)]
      exact ((insertEntry_perm k v hes.2).cons e).trans (.swap _ _ _)

/-- **A write adds its entry** and takes away that with the same key. -/
theorem toList_insert_perm (m : OrderedMap κ ν) (k : κ) (v : ν) :
    (m.insert k v).toList.Perm ((k, v) :: m.toList.filter fun e => e.1 ≠ k) :=
  insertEntry_perm k v m.ascending

omit [Std.TransOrd κ] in
theorem filter_ne_eq_self_of_find?_eq_none (m : OrderedMap κ ν) {k : κ} (h : m.find? k = none) :
    m.toList.filter (fun e => e.1 ≠ k) = m.toList := by
  apply List.filter_eq_self.2
  rintro ⟨j, v⟩ hmem
  have hj := (find?_eq_some_iff m j v).2 hmem
  have hne : j ≠ k := by
    rintro rfl
    rw [h] at hj
    cases hj
  simpa using hne

private theorem insertEntry_of_mem {k : κ} {v w : ν} :
    ∀ {es : List (κ × ν)}, Ascending es → (k, w) ∈ es →
      insertEntry k v es = es.map fun e => if e.1 = k then (k, v) else e
  | [], _, h => absurd h List.not_mem_nil
  | e :: es, hes, h => by
    have hes := List.pairwise_cons.1 hes
    -- Behind an entry under `k` there is no other one.
    have hrest : e.1 = k → es.map (fun e => if e.1 = k then (k, v) else e) = es := by
      rintro rfl
      have hstay : ∀ d ∈ es, (if d.1 = e.1 then (e.1, v) else d) = id d := by
        intro d hd
        have hlt := hes.1 d hd
        have hne : d.1 ≠ e.1 := by
          intro heq
          simp [heq] at hlt
        rw [if_neg hne, id]
      exact (List.map_congr_left hstay).trans (List.map_id es)
    rw [insertEntry, List.map_cons]
    split
    · next hk =>
      rcases List.mem_cons.1 h with rfl | hmem
      · simp at hk
      · have hgt := Std.TransCmp.lt_trans hk (hes.1 _ hmem)
        simp at hgt
    · next hk =>
      have hke : e.1 = k := (Std.LawfulEqCmp.eq_of_compare hk).symm
      rw [if_pos hke, hrest hke]
    · next hk =>
      have hne : e.1 ≠ k := by
        rintro rfl
        simp at hk
      have hmem : (k, w) ∈ es := by
        rcases List.mem_cons.1 h with rfl | hmem
        · exact absurd rfl hne
        · exact hmem
      rw [if_neg hne, insertEntry_of_mem hes.2 hmem]

/-- A write under a key that is there changes that one entry. -/
theorem toList_insert_of_find? (m : OrderedMap κ ν) {k : κ} {v w : ν} (h : m.find? k = some w) :
    (m.insert k v).toList = m.toList.map fun e => if e.1 = k then (k, v) else e :=
  insertEntry_of_mem m.ascending ((find?_eq_some_iff m k w).1 h)

/-! ## Maps that are filled from a list

With distinct keys no write takes anything away, so that the map has all entries of the list in the
order of their keys. -/

private theorem foldl_insert_perm (es : List (κ × ν)) (m : OrderedMap κ ν)
    (hes : (es.map (·.1)).Nodup) (hm : ∀ e ∈ es, m.find? e.1 = none) :
    (es.foldl (fun m e => m.insert e.1 e.2) m).toList.Perm (m.toList ++ es) := by
  induction es generalizing m with
  | nil => simp
  | cons e es ih =>
      rw [List.map_cons, List.nodup_cons] at hes
      rw [List.foldl_cons]
      -- Keys are distinct, so those to come are still free after `e`.
      have hfree : ∀ d ∈ es, (m.insert e.1 e.2).find? d.1 = none := by
        intro d hd
        have hne : d.1 ≠ e.1 := fun heq => hes.1 (heq ▸ List.mem_map_of_mem hd)
        rw [find?_insert, if_neg hne]
        exact hm d (List.mem_cons_of_mem _ hd)
      have hins : (m.insert e.1 e.2).toList.Perm (e :: m.toList) := by
        have hperm := toList_insert_perm m e.1 e.2
        rwa [filter_ne_eq_self_of_find?_eq_none m (hm e List.mem_cons_self)] at hperm
      have hrest := ih _ hes.2 hfree
      exact hrest.trans ((hins.append_right es).trans List.perm_middle.symm)

/-- **A map that is filled from entries with distinct keys has just those.** -/
theorem toList_ofList_perm {es : List (κ × ν)} (h : (es.map (·.1)).Nodup) :
    (ofList es).toList.Perm es := by
  have hperm := foldl_insert_perm es empty h fun _ _ => rfl
  simpa [ofList, empty] using hperm

theorem find?_ofList_eq_some_iff {es : List (κ × ν)} (h : (es.map (·.1)).Nodup) (k : κ) (v : ν) :
    (ofList es).find? k = some v ↔ (k, v) ∈ es := by
  rw [find?_eq_some_iff, (toList_ofList_perm h).mem_iff]

/-- A map is filled again from its entries, in any order. -/
theorem ofList_eq_of_perm {m : OrderedMap κ ν} {es : List (κ × ν)} (h : es.Perm m.toList) :
    ofList es = m := by
  have hkeys : (es.map (·.1)).Nodup := (h.map _).nodup_iff.2 m.nodup_keys
  exact ext (eq_of_mem_iff (ofList es).ascending m.ascending fun _ =>
    ((toList_ofList_perm hkeys).trans h).mem_iff)

end Writes

/-! ## Changes of all values

The keys stay where they are, and with them the order of the entries. -/

/-- The map with a function applied to each value. -/
def mapValues {μ : Type} (f : ν → μ) (m : OrderedMap κ ν) : OrderedMap κ μ :=
  ⟨m.toList.map fun e => (e.1, f e.2), by
    unfold Ascending
    rw [List.pairwise_map]
    exact m.ascending⟩

theorem values_mapValues {μ : Type} (f : ν → μ) (m : OrderedMap κ ν) :
    (m.mapValues f).values = m.values.map f := by
  simp [values, mapValues, Function.comp_def]

theorem find?_mapValues {μ : Type} (f : ν → μ) (m : OrderedMap κ ν) (k : κ) :
    (m.mapValues f).find? k = (m.find? k).map f := by
  unfold find? mapValues
  rw [List.find?_map, Option.map_map, Option.map_map]
  rfl

theorem keys_mapValues {μ : Type} (f : ν → μ) (m : OrderedMap κ ν) :
    (m.mapValues f).keys = m.keys := by
  simp [keys, mapValues, Function.comp_def]

/-- Maps with entries under the same keys have the same list of keys. -/
theorem keys_eq_of_contains [Std.TransOrd κ] [Std.LawfulEqOrd κ] {μ : Type} {m : OrderedMap κ ν}
    {n : OrderedMap κ μ} (h : ∀ k, m.contains k = n.contains k) : m.keys = n.keys := by
  have hsame : m.mapValues (fun _ => ()) = n.mapValues fun _ => () := by
    apply ext_find?
    intro k
    have hk := h k
    unfold contains at hk
    rw [find?_mapValues, find?_mapValues]
    cases hm : m.find? k <;> cases hn : n.find? k <;> simp [hm, hn] at hk ⊢
  rw [← keys_mapValues (fun _ => ()) m, hsame, keys_mapValues]

private theorem map_insertEntry {μ : Type} (f : ν → μ) (k : κ) (v : ν) (es : List (κ × ν)) :
    (insertEntry k v es).map (fun e => (e.1, f e.2)) =
      insertEntry k (f v) (es.map fun e => (e.1, f e.2)) := by
  induction es with
  | nil => rfl
  | cons e es ih =>
      rw [insertEntry, List.map_cons, insertEntry]
      cases compare k e.1 with
      | lt | eq => rfl
      | gt => exact congrArg _ ih

theorem mapValues_insert [Std.TransOrd κ] {μ : Type} (f : ν → μ) (m : OrderedMap κ ν) (k : κ)
    (v : ν) : (m.insert k v).mapValues f = (m.mapValues f).insert k (f v) :=
  ext (map_insertEntry f k v m.toList)

theorem mapValues_ofList [Std.TransOrd κ] {μ : Type} (f : ν → μ) (es : List (κ × ν)) :
    (ofList es).mapValues f = ofList (es.map fun e => (e.1, f e.2)) := by
  have hfold : ∀ m : OrderedMap κ ν,
      (es.foldl (fun m e => m.insert e.1 e.2) m).mapValues f =
        (es.map fun e => (e.1, f e.2)).foldl (fun m e => m.insert e.1 e.2) (m.mapValues f) := by
    induction es with
    | nil => exact fun _ => rfl
    | cons e es ih =>
        intro m
        rw [List.foldl_cons, List.map_cons, List.foldl_cons, ih, mapValues_insert]
  exact hfold empty

/-! ## Parts of a map

A part of a map that is picked by its keys is a map again. -/

/-- The entries whose keys are wanted. -/
def filterKeys (m : OrderedMap κ ν) (p : κ → Bool) : OrderedMap κ ν :=
  ⟨m.toList.filter fun e => p e.1, m.ascending.filter _⟩

theorem find?_filterKeys [Std.LawfulEqOrd κ] (m : OrderedMap κ ν) (p : κ → Bool) (k : κ) :
    (m.filterKeys p).find? k = if p k then m.find? k else none := by
  apply Option.ext
  intro v
  rw [find?_eq_some_iff]
  show (k, v) ∈ m.toList.filter (fun e => p e.1) ↔ _
  rw [List.mem_filter, ← find?_eq_some_iff]
  cases p k <;> simp

end NetAudit.OrderedMap
