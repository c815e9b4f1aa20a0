/-!
# Maps that keep their keys in ascending order

An `OrderedMap κ ν` is the list of its entries in strictly ascending order of the keys, with the
proof of that order in the type. So a map has one representation only: two maps with the same
entries are equal, whatever the order in which they were filled.

Main statements: `find?_insert` (a write is read back, and changes no other key) and
`ext_find?` (maps that answer every look-up alike are equal).
-/

namespace NetAudit

/-- The entries stand in strictly ascending order of their keys. -/
def Ascending {κ ν : Type} [Ord κ] (entries : List (κ × ν)) : Prop :=
  entries.Pairwise fun a b => compare a.1 b.1 = .lt

/-- A finite map, as the list of its entries by ascending key. -/
structure OrderedMap (κ ν : Type) [Ord κ] where
  toList : List (κ × ν)
  ascending : Ascending toList

namespace OrderedMap

variable {κ ν : Type} [Ord κ]

instance [DecidableEq κ] [DecidableEq ν] : DecidableEq (OrderedMap κ ν) := fun m n =>
  decidable_of_iff (m.toList = n.toList) (by cases m; cases n; simp)

theorem ext {m n : OrderedMap κ ν} (h : m.toList = n.toList) : m = n := by
  cases m; cases n; cases h; rfl

/-- The map without entries. -/
def empty : OrderedMap κ ν := ⟨[], .nil⟩

instance : Inhabited (OrderedMap κ ν) := ⟨empty⟩

/-- The value under `k`. -/
def find? (m : OrderedMap κ ν) (k : κ) : Option ν :=
  (m.toList.find? fun e => compare k e.1 == .eq).map (·.2)

/-- Is there a value under `k`? -/
def contains (m : OrderedMap κ ν) (k : κ) : Bool := (m.find? k).isSome

/-- The keys, ascending. -/
def keys (m : OrderedMap κ ν) : List κ := m.toList.map (·.1)

/-- The values, by ascending key. -/
def values (m : OrderedMap κ ν) : List ν := m.toList.map (·.2)

/-- The number of entries. -/
def size (m : OrderedMap κ ν) : Nat := m.toList.length

/-- Write `v` under `k` into ascending entries, in place of the value that stands there. -/
def insertEntry (k : κ) (v : ν) : List (κ × ν) → List (κ × ν)
  | [] => [(k, v)]
  | e :: es =>
    match compare k e.1 with
    | .lt => (k, v) :: e :: es
    | .eq => (k, v) :: es
    | .gt => e :: insertEntry k v es

/-! ### Writing keeps the order -/

/-- Every entry after a write was there before or is the one written. -/
theorem mem_insertEntry {k : κ} {v : ν} {e : κ × ν} :
    ∀ {es : List (κ × ν)}, e ∈ insertEntry k v es → e = (k, v) ∨ e ∈ es
  | [], h => by simpa [insertEntry] using h
  | d :: ds, h => by
    rw [insertEntry] at h
    split at h
    · simpa using h
    · rcases List.mem_cons.1 h with h | h
      · exact .inl h
      · exact .inr (List.mem_cons_of_mem _ h)
    · rcases List.mem_cons.1 h with h | h
      · exact .inr (h ▸ List.mem_cons_self)
      · exact (mem_insertEntry h).imp_right (List.mem_cons_of_mem _)

theorem ascending_insertEntry [Std.TransOrd κ] {k : κ} {v : ν} :
    ∀ {es : List (κ × ν)}, Ascending es → Ascending (insertEntry k v es)
  | [], _ => List.pairwise_singleton _ _
  | e :: es, h => by
    have hes := List.pairwise_cons.1 h
    rw [insertEntry]
    split
    · next hk =>
      refine List.pairwise_cons.2 ⟨fun d hd => ?_, h⟩
      rcases List.mem_cons.1 hd with rfl | hd
      · exact hk
      · exact Std.TransCmp.lt_trans hk (hes.1 d hd)
    · next hk =>
      exact List.pairwise_cons.2
        ⟨fun d hd => (Std.TransCmp.congr_left hk).trans (hes.1 d hd), hes.2⟩
    · next hk =>
      refine List.pairwise_cons.2 ⟨fun d hd => ?_, ascending_insertEntry hes.2⟩
      rcases mem_insertEntry hd with rfl | hd
      · exact Std.OrientedCmp.gt_iff_lt.1 hk
      · exact hes.1 d hd

/-- Write `v` under `k`, in place of any value that stands there. -/
def insert [Std.TransOrd κ] (m : OrderedMap κ ν) (k : κ) (v : ν) : OrderedMap κ ν :=
  ⟨insertEntry k v m.toList, ascending_insertEntry m.ascending⟩

/-- Replace what stands under `k`, or its absence, by `f` of it. -/
def update [Std.TransOrd κ] (m : OrderedMap κ ν) (k : κ) (f : Option ν → ν) : OrderedMap κ ν :=
  m.insert k (f (m.find? k))

/-- The map of the entries of a list; of two entries with one key the later counts. -/
def ofList [Std.TransOrd κ] (entries : List (κ × ν)) : OrderedMap κ ν :=
  entries.foldl (fun m e => m.insert e.1 e.2) empty

/-! ### Reading after writing -/

@[simp] theorem find?_empty (k : κ) : (empty : OrderedMap κ ν).find? k = none := rfl

section Laws

variable [DecidableEq κ] [Std.TransOrd κ] [Std.LawfulEqOrd κ]

omit [Std.TransOrd κ] in
theorem find?_insertEntry (k j : κ) (v : ν) :
    ∀ es : List (κ × ν),
      (insertEntry k v es).find? (fun e => compare j e.1 == .eq) =
        if j = k then some (k, v) else es.find? (fun e => compare j e.1 == .eq)
  | [] => by
    by_cases h : j = k
    · simp [insertEntry, h]
    · simp [insertEntry, h]
  | e :: es => by
    rw [insertEntry]
    by_cases h : j = k
    · subst h
      split
      · simp
      · simp
      · next hk =>
        simp [hk, find?_insertEntry j j v es]
    · split
      · simp [List.find?_cons, h]
      · next hk =>
        have hke : k = e.1 := Std.LawfulEqCmp.eq_of_compare hk
        simp [h, ← hke]
      · simp [List.find?_cons, find?_insertEntry k j v es, h]

/-- A write is read back, and changes no other key. -/
theorem find?_insert (m : OrderedMap κ ν) (k j : κ) (v : ν) :
    (m.insert k v).find? j = if j = k then some v else m.find? j := by
  simp only [find?, insert, find?_insertEntry]
  split <;> rfl

omit [DecidableEq κ] [Std.TransOrd κ] in
/-- What stands in the list under a key is what a look-up of the key finds. -/
theorem find?_eq_some_iff (m : OrderedMap κ ν) (k : κ) (v : ν) :
    m.find? k = some v ↔ (k, v) ∈ m.toList := by
  obtain ⟨es, hes⟩ := m
  induction es with
  | nil => simp [find?]
  | cons e es ih =>
    have he := List.pairwise_cons.1 hes
    have ih := ih he.2
    simp only [find?] at ih ⊢
    rw [List.find?_cons]
    by_cases hk : k = e.1
    -- Behind the entry of `k` all keys are greater, so there is no other one of it.
    · subst hk
      simp only [Std.ReflCmp.compare_self, beq_self_eq_true, Option.map_some, Option.some.injEq,
        List.mem_cons]
      constructor
      · rintro rfl
        exact .inl rfl
      · rintro (h | h)
        · exact (congrArg Prod.snd h).symm
        · have := he.1 _ h
          simp at this
    · have hne : (compare k e.1 == Ordering.eq) = false := by simp [hk]
      rw [hne, ih]
      constructor
      · exact List.mem_cons_of_mem _
      · intro h
        rcases List.mem_cons.1 h with h | h
        · exact absurd (congrArg Prod.fst h) hk
        · exact h

omit [DecidableEq κ] [Std.LawfulEqOrd κ] in
/-- Ascending lists with the same entries are the same list. -/
theorem eq_of_mem_iff : ∀ {es ds : List (κ × ν)}, Ascending es → Ascending ds →
    (∀ e, e ∈ es ↔ e ∈ ds) → es = ds
  | [], [], _, _, _ => rfl
  | [], d :: _, _, _, h => absurd ((h d).2 List.mem_cons_self) List.not_mem_nil
  | e :: _, [], _, _, h => absurd ((h e).1 List.mem_cons_self) List.not_mem_nil
  | e :: es, d :: ds, hes, hds, h => by
    have he := List.pairwise_cons.1 hes
    have hd := List.pairwise_cons.1 hds
    have hed : e = d := by
      rcases List.mem_cons.1 ((h e).1 List.mem_cons_self) with h1 | h1
      · exact h1
      rcases List.mem_cons.1 ((h d).2 List.mem_cons_self) with h2 | h2
      · exact h2.symm
      have := Std.TransCmp.lt_trans (hd.1 e h1) (he.1 d h2)
      simp at this
    subst hed
    refine congrArg (e :: ·) (eq_of_mem_iff he.2 hd.2 fun x => ⟨fun hx => ?_, fun hx => ?_⟩)
    · rcases List.mem_cons.1 ((h x).1 (List.mem_cons_of_mem _ hx)) with rfl | h1
      · have := he.1 x hx
        simp at this
      · exact h1
    · rcases List.mem_cons.1 ((h x).2 (List.mem_cons_of_mem _ hx)) with rfl | h1
      · have := hd.1 x hx
        simp at this
      · exact h1

omit [DecidableEq κ] in
/-- Maps that answer every look-up alike are equal. -/
theorem ext_find? {m n : OrderedMap κ ν} (h : ∀ k, m.find? k = n.find? k) : m = n :=
  ext <| eq_of_mem_iff m.ascending n.ascending fun ⟨k, v⟩ => by
    rw [← find?_eq_some_iff, ← find?_eq_some_iff, h]

end Laws

end OrderedMap

end NetAudit
