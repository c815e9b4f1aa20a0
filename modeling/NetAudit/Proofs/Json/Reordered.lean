import Mathlib.Data.List.Perm.Basic
import NetAudit.Json.Value

/-!
# Values with their fields in another order

The fields of an object may be written in any order, and printed results have them in the order of
their names (`reordered_sorted`). A reader of objects has to find the same value whatever the order,
so what is read back is stated for every value that is `Reordered`.
-/

namespace NetAudit.Json

mutual

/-- Two values are the same but for the order of the fields of their objects. -/
inductive Reordered : Json → Json → Prop
  | null : Reordered .null .null
  | bool (b : Bool) : Reordered (.bool b) (.bool b)
  | number (n : Int) : Reordered (.number n) (.number n)
  | string (s : String) : Reordered (.string s) (.string s)
  | array {items items' : List Json} :
      List.Forall₂ Reordered items items' → Reordered (.array items) (.array items')
  | object {fields others fields' : List (String × Json)} : fields.Perm others →
      List.Forall₂ ReorderedField others fields' → Reordered (.object fields) (.object fields')

/-- A field of the same name, with the same value but for the order of fields. -/
inductive ReorderedField : String × Json → String × Json → Prop
  | value (name : String) {j k : Json} : Reordered j k → ReorderedField (name, j) (name, k)

end

/-- Whatever stands on the right has its like on the left. -/
theorem exists_mem_of_forall₂ {α β : Type} {R : α → β → Prop} {as : List α} {bs : List β}
    (h : List.Forall₂ R as bs) {b : β} (hb : b ∈ bs) : ∃ a ∈ as, R a b := by
  induction h with
  | nil => exact absurd hb List.not_mem_nil
  | @cons a b' as bs hfirst _ ih =>
      rcases List.mem_cons.1 hb with rfl | hb
      · exact ⟨a, List.mem_cons_self, hfirst⟩
      · obtain ⟨a', ha', hr⟩ := ih hb
        exact ⟨a', List.mem_cons_of_mem _ ha', hr⟩

namespace ReorderedField

variable {f g : String × Json} {fs gs : List (String × Json)}

theorem name_eq (h : ReorderedField f g) : g.1 = f.1 := by
  cases h
  rfl

theorem reordered (h : ReorderedField f g) : f.2.Reordered g.2 := by
  cases h with
  | value _ h => exact h

/-- The names are the same. -/
theorem map_name (h : List.Forall₂ ReorderedField fs gs) : gs.map (·.1) = fs.map (·.1) := by
  induction h with
  | nil => rfl
  | cons hfirst _ ih => rw [List.map_cons, List.map_cons, hfirst.name_eq, ih]

end ReorderedField

namespace Reordered

variable {j : Json}

theorem exists_items {items : List Json} (h : (Json.array items).Reordered j) :
    ∃ items', j = .array items' ∧ List.Forall₂ Reordered items items' := by
  cases h with
  | array h => exact ⟨_, rfl, h⟩

theorem exists_fields {fields : List (String × Json)} (h : (Json.object fields).Reordered j) :
    ∃ others fields', j = .object fields' ∧ fields.Perm others ∧
      List.Forall₂ ReorderedField others fields' := by
  cases h with
  | object hperm h => exact ⟨_, _, rfl, hperm, h⟩

section Split

variable {name : String} {i : Json} {fields fields' : List (String × Json)}

theorem nodup_names (h : (Json.object fields).Reordered (.object fields'))
    (hnames : (fields.map (·.1)).Nodup) : (fields'.map (·.1)).Nodup := by
  cases h with
  | object hperm hfields =>
      rw [ReorderedField.map_name hfields]
      exact (hperm.map _).nodup_iff.1 hnames

/-- Wherever a field stands among the others, its value is its own. -/
theorem of_field (h : (Json.object ((name, i) :: fields)).Reordered (.object fields'))
    (hnew : name ∉ fields.map (·.1)) : ∀ f ∈ fields', f.1 = name → i.Reordered f.2 := by
  cases h with
  | object hperm hfields =>
      rintro f hf rfl
      obtain ⟨g, hg, hr⟩ := exists_mem_of_forall₂ hfields hf
      rcases List.mem_cons.1 (hperm.mem_iff.2 hg) with rfl | hmem
      · exact hr.reordered
      · exact absurd (hr.name_eq ▸ List.mem_map_of_mem hmem) hnew

/-- Without one field, the others are left. -/
theorem without_field (h : (Json.object ((name, i) :: fields)).Reordered (.object fields'))
    (hnew : name ∉ fields.map (·.1)) :
    (Json.object fields).Reordered (.object (fields'.filter fun f => f.1 ≠ name)) := by
  cases h with
  | @object _ others _ hperm hfields =>
      have hall : fields.filter (fun f => f.1 ≠ name) = fields :=
        List.filter_eq_self.2 fun f hf => by
          simpa using fun heq : f.1 = name => hnew (heq ▸ List.mem_map_of_mem hf)
      have hothers := hperm.filter fun f => f.1 ≠ name
      rw [List.filter_cons_of_neg (by simp), hall] at hothers
      refine .object hothers (List.rel_filter (fun f g hr => ?_) hfields)
      show decide (f.1 ≠ name) = true ↔ decide (g.1 ≠ name) = true
      rw [hr.name_eq]

end Split

end Reordered

/-! ## The order of names

To sort the fields of all objects in a value is one way to reorder them. -/

mutual

theorem reordered_self : ∀ j : Json, j.Reordered j
  | .null => .null
  | .bool b => .bool b
  | .number n => .number n
  | .string s => .string s
  | .array items => .array (forall₂_self items)
  | .object fields => .object (.refl _) (forall₂_field_self fields)

theorem forall₂_self : ∀ items : List Json, List.Forall₂ Reordered items items
  | [] => .nil
  | j :: js => .cons (reordered_self j) (forall₂_self js)

theorem forall₂_field_self : ∀ fields : List (String × Json),
    List.Forall₂ ReorderedField fields fields
  | [] => .nil
  | (name, j) :: fs => .cons (.value name (reordered_self j)) (forall₂_field_self fs)

end

mutual

/-- **A value with its fields in the order of their names is the same value.** -/
theorem reordered_sorted : ∀ j : Json, j.Reordered j.sorted
  | .null => .null
  | .bool b => .bool b
  | .number n => .number n
  | .string s => .string s
  | .array items => .array (forall₂_sortedItems items)
  | .object fields => by
      obtain ⟨others, hothers, hperm⟩ := List.perm_comp_forall₂
        (List.mergeSort_perm (sortedFields fields) _) (forall₂_sortedFields fields).flip
      exact .object hperm.symm hothers.flip

theorem forall₂_sortedItems : ∀ items : List Json,
    List.Forall₂ Reordered items (sortedItems items)
  | [] => .nil
  | j :: js => .cons (reordered_sorted j) (forall₂_sortedItems js)

theorem forall₂_sortedFields : ∀ fields : List (String × Json),
    List.Forall₂ ReorderedField fields (sortedFields fields)
  | [] => .nil
  | (name, j) :: fs => .cons (.value name (reordered_sorted j)) (forall₂_sortedFields fs)

end

end NetAudit.Json
