import NetAudit.Json.Record
import NetAudit.Proofs.Json.Codecs

/-!
# Records that are found again

A record is found field by field, and a field that was found before is a duplicate. So what has been
found after some of an object's fields is determined by the names that were seen (`Slots.filled`):
one more field adds its name (`Slots.put_filled`), and when all have been seen the row is complete
(`Slots.row_filled`).
-/

namespace NetAudit.Json

variable {α β : Type} {n : Nat}

/-! ## Rows

A row has a value for each field of a record, and fields that need not be shown may be left out. -/

/-- The value of the field is found again where it is written, and counts where it is left out. -/
structure Field.Restores (f : Field) (n : Nat) (a : f.type) : Prop where
  shown : f.hidden a = false → f.codec.Restores n a
  absent : f.hidden a = true → f.absent = some a

/-- A field that is always written is restored if its value is. -/
theorem Field.Restores.of_shown {f : Field} {a : f.type} (h : f.codec.Restores n a)
    (hshown : f.hidden a = false) : f.Restores n a where
  shown _ := h
  absent hhidden := absurd (hshown.symm.trans hhidden) Bool.false_ne_true

/-- All values of a row are found again. -/
def Row.Restores (n : Nat) : (fs : List Field) → Row fs → Prop
  | [], () => True
  | f :: fs, (a, row) => f.Restores n a ∧ Row.Restores n fs row

namespace Row

/-- What is written for a row has names of its fields. -/
theorem map_name_toFields : ∀ (fs : List Field) (row : Row fs),
    ((toFields fs row).map (·.1)).Sublist (fs.map (·.name))
  | [], () => .slnil
  | f :: fs, (a, row) => by
      rw [toFields]
      split
      · exact (map_name_toFields fs row).cons _
      · exact (map_name_toFields fs row).cons_cons _

/-- Names that are distinct with another one are so where some of them are not written. -/
theorem nodup_names {name : String} {fs : List Field} (h : (name :: fs.map (·.name)).Nodup)
    (row : Row fs) : (name :: (toFields fs row).map (·.1)).Nodup :=
  h.sublist ((map_name_toFields fs row).cons_cons name)

end Row

/-! ## Slots

While an object is read, each field of the record has a slot. Which slots are filled depends on the
names that were seen, and not on their order. -/

namespace Slots

section Put

variable {name : String} {d : Document} {f : Field} {fs : List Field} {slots : Slots fs}

theorem put_self : put f.name d (f :: fs) (Option.none, slots) =
    (f.codec.decode d).map fun a => some (some a, slots) :=
  if_pos rfl

theorem put_of_ne {slot : Option f.type} (h : name ≠ f.name) :
    put name d (f :: fs) (slot, slots) =
      (put name d fs slots).map fun found => found.map fun slots => (slot, slots) :=
  if_neg h

end Put

/-- The slots of a row once fields with these names have been found. -/
def filled (seen : List String) : (fs : List Field) → Row fs → Slots fs
  | [], () => ()
  | f :: fs, (a, row) => (if f.name ∈ seen then some a else Option.none, filled seen fs row)

theorem filled_nil : ∀ (fs : List Field) (row : Row fs), filled [] fs row = none fs
  | [], () => rfl
  | f :: fs, (a, row) => by
      rw [filled, filled_nil fs row, if_neg List.not_mem_nil]
      rfl

/-- A name that no field has fills no slot. -/
theorem filled_cons_of_not_mem {name : String} {seen : List String} :
    ∀ {fs : List Field} {row : Row fs}, name ∉ fs.map (·.name) →
      filled (name :: seen) fs row = filled seen fs row
  | [], (), _ => rfl
  | f :: fs, (a, row), h => by
      rw [List.map_cons, List.mem_cons, not_or] at h
      have hmem : f.name ∈ name :: seen ↔ f.name ∈ seen := by
        rw [List.mem_cons, or_iff_right fun heq => h.1 heq.symm]
      rw [filled, filled, filled_cons_of_not_mem h.2, if_congr hmem rfl rfl]

/-- **One more field of what is written** fills its slot. -/
theorem put_filled {name : String} {i j : Json} {seen : List String} (hseen : name ∉ seen)
    (hj : i.Reordered j) : ∀ {fs : List Field} {row : Row fs}, (fs.map (·.name)).Nodup →
      Row.Restores n fs row → (name, i) ∈ Row.toFields fs row →
        put name (.ofJson j) fs (filled seen fs row) = .ok (some (filled (name :: seen) fs row))
  | [], (), _, _, h => absurd h List.not_mem_nil
  | f :: fs, (a, row), hnodup, ⟨ha, hrow⟩, h => by
      obtain ⟨hnew, hnodup⟩ := List.nodup_cons.1 hnodup
      have hnames : ∀ {k i}, (k, i) ∈ Row.toFields fs row → k ∈ fs.map (·.name) := fun hmem =>
        (Row.map_name_toFields fs row).subset (List.mem_map_of_mem hmem)
      by_cases hname : name = f.name
      · -- The value is that of this field: no later field has its name.
        subst hname
        have hhidden : f.hidden a = false ∧ i = f.codec.encode a := by
          rw [Row.toFields] at h
          split at h
          · exact absurd (hnames h) hnew
          · next hshown =>
            rcases List.mem_cons.1 h with heq | hmem
            · exact ⟨by simpa using hshown, congrArg Prod.snd heq⟩
            · exact absurd (hnames hmem) hnew
        obtain ⟨hshown, rfl⟩ := hhidden
        rw [filled, filled, if_neg hseen, if_pos List.mem_cons_self, filled_cons_of_not_mem hnew]
        refine put_self.trans ?_
        rw [(ha.shown hshown).decode_eq hj]
        rfl
      · have hmem : (name, i) ∈ Row.toFields fs row := by
          rw [Row.toFields] at h
          split at h
          · exact h
          · exact (List.mem_cons.1 h).resolve_left fun heq => hname (congrArg Prod.fst heq)
        have hhere : f.name ∈ name :: seen ↔ f.name ∈ seen := by
          rw [List.mem_cons, or_iff_right fun heq => hname heq.symm]
        rw [filled, filled, if_congr hhere rfl rfl]
        refine (put_of_ne hname).trans ?_
        rw [put_filled hseen hj hnodup hrow hmem]
        rfl

/-- The fields of what is written fill their slots, whatever their order. -/
theorem ofFields_filled {fs : List Field} {row : Row fs} (hnodup : (fs.map (·.name)).Nodup)
    (hrow : Row.Restores n fs row) {others fields : List (String × Json)}
    (hfields : List.Forall₂ ReorderedField others fields) {seen : List String}
    (hothers : ∀ f ∈ others, f ∈ Row.toFields fs row)
    (hnew : (others.map (·.1)).Nodup) (hseen : ∀ name ∈ others.map (·.1), name ∉ seen) :
    ofFields fs Option.none (Document.ofFields fields) (filled seen fs row) =
      .ok (filled ((others.map (·.1)).reverse ++ seen) fs row) := by
  induction hfields generalizing seen with
  | nil => rfl
  | @cons f g others fields hfirst _ ih =>
      cases hfirst with
      | @value name i j hj =>
          obtain ⟨hmem, hothers⟩ := List.forall_mem_cons.1 hothers
          obtain ⟨hfresh, hnew⟩ := List.nodup_cons.1 hnew
          obtain ⟨hunseen, hseen⟩ := List.forall_mem_cons.1 hseen
          rw [Document.ofFields, ofFields]
          refine (Decoded.bind_ok (put_filled hunseen hj hnodup hrow hmem) _).trans ?_
          have hunseen' : ∀ k ∈ others.map (·.1), k ∉ name :: seen := fun k hk hkseen =>
            (List.mem_cons.1 hkseen).elim (fun heq => hfresh (heq ▸ hk)) (hseen k hk)
          rw [List.map_cons, List.reverse_cons, List.append_assoc]
          exact ih hothers hnew hunseen'

/-- **When all that is written has been seen, the row is complete.** -/
theorem row_filled {seen : List String} : ∀ {fs : List Field} {row : Row fs},
    Row.Restores n fs row → (∀ f ∈ Row.toFields fs row, f.1 ∈ seen) →
      Slots.row fs (filled seen fs row) = .ok row
  | [], (), _, _ => rfl
  | f :: fs, (a, row), ⟨ha, hrow⟩, h => by
      have hslot : (if f.name ∈ seen then some a else Option.none).or f.absent = some a := by
        split
        · rfl
        · next hunseen =>
          apply ha.absent
          rw [Row.toFields] at h
          split at h
          · assumption
          · exact absurd (h _ List.mem_cons_self) hunseen
      have hrest : ∀ g ∈ Row.toFields fs row, g.1 ∈ seen := by
        rw [Row.toFields] at h
        split at h
        · exact h
        · exact fun g hg => h g (List.mem_cons_of_mem _ hg)
      rw [filled, Slots.row, hslot]
      exact Decoded.bind_ok (row_filled hrow hrest) _

end Slots

/-! ## Records

All fields are read, and then every slot is filled, or has a default. -/

/-- What is written for a row can be kept for later. -/
theorem Row.survey_eq {i j : Json} {name : String} (hj : i.Reordered j) {depth : Nat}
    (hdepth : n < depth) : ∀ {fs : List Field} {row : Row fs}, Row.Restores n fs row →
      (name, i) ∈ Row.toFields fs row → (Document.ofJson j).survey depth = .ok ()
  | [], (), _, h => absurd h List.not_mem_nil
  | f :: fs, (a, row), ⟨ha, hrow⟩, h => by
      rw [Row.toFields] at h
      split at h
      · exact survey_eq hj hdepth hrow h
      · next hshown =>
        rcases List.mem_cons.1 h with heq | hmem
        · obtain rfl : i = f.codec.encode a := congrArg Prod.snd heq
          exact (ha.shown (by simpa using hshown)).survey_eq hj hdepth
        · exact survey_eq hj hdepth hrow hmem

namespace Codec

/-- **A record is restored if its fields are**, if they have distinct names. -/
theorem record_restores {name : String} {fs : List Field} {ofRow : Row fs → α} {toRow : α → Row fs}
    {a : α} (hnodup : (fs.map (·.name)).Nodup) (hrow : Row.Restores n fs (toRow a))
    (ha : ofRow (toRow a) = a) : (record name fs ofRow toRow).Restores (n + 1) a := by
  constructor
  · -- Any order of the fields shows the names of the row, each once, so all slots get filled.
    intro j hj
    obtain ⟨others, fields, rfl, hperm, hfields⟩ := Reordered.exists_fields
      (hj : (Json.object (Row.toFields fs (toRow a))).Reordered j)
    have hothers : (others.map (·.1)).Nodup :=
      (hperm.map _).nodup_iff.1 (hnodup.sublist (Row.map_name_toFields fs (toRow a)))
    have hslots : _ = Except.ok (Slots.filled (_ ++ []) fs (toRow a)) :=
      Slots.ofFields_filled hnodup hrow hfields (fun f hf => hperm.mem_iff.2 hf) hothers
        fun _ _ => List.not_mem_nil
    have hall : ∀ f ∈ Row.toFields fs (toRow a), f.1 ∈ (others.map (·.1)).reverse ++ [] :=
      fun f hf => by
        rw [List.append_nil, List.mem_reverse]
        exact List.mem_map_of_mem (hperm.mem_iff.1 hf)
    rw [Slots.filled_nil] at hslots
    refine (Decoded.bind_ok hslots _).trans ?_
    refine (Decoded.bind_ok (Slots.row_filled hrow hall) _).trans ?_
    exact congrArg Except.ok ha
  · intro j hj depth hdepth
    obtain ⟨others, fields, rfl, hperm, hfields⟩ := Reordered.exists_fields
      (hj : (Json.object (Row.toFields fs (toRow a))).Reordered j)
    rw [Document.ofJson, Document.survey, if_neg (by omega)]
    apply surveyFields_ofFields
    intro f hf
    obtain ⟨g, hg, hr⟩ := exists_mem_of_forall₂ hfields hf
    exact Row.survey_eq hr.reordered (by omega) hrow (hperm.mem_iff.2 hg)

/-! ## Two values side by side

Two records may share one object, and the reader of each takes its own fields out. -/

/-- The field with a name is found among others, which are kept. -/
theorem takeField_ofFields {c : Codec α} {a : α} {name : String} {fields : List (String × Json)}
    (hnames : (fields.map (·.1)).Nodup)
    (hvalue : ∀ f ∈ fields, f.1 = name → c.decode (.ofJson f.2) = .ok a)
    (hothers : ∀ f ∈ fields, f.1 ≠ name →
      (Document.ofJson f.2).survey Document.surveyDepth = .ok ())
    {found : Option α} (hfound : name ∈ fields.map (·.1) → found = none) :
    takeField c name none (Document.ofFields fields) found =
      .ok (if name ∈ fields.map (·.1) then some a else found,
        Document.ofFields (fields.filter fun f => f.1 ≠ name)) := by
  induction fields generalizing found with
  | nil => rfl
  | cons f fields ih =>
      obtain ⟨k, j⟩ := f
      obtain ⟨hk, hvalue⟩ := List.forall_mem_cons.1 hvalue
      obtain ⟨hj, hothers⟩ := List.forall_mem_cons.1 hothers
      obtain ⟨hnew, hnames⟩ := List.nodup_cons.1 hnames
      -- The field is taken out here, or it comes later and this one is kept.
      by_cases hname : k = name
      · subst hname
        obtain rfl := hfound List.mem_cons_self
        have hrest : takeField c k none _ (some a) = _ :=
          ih hnames hvalue hothers fun hmem => absurd hmem hnew
        rw [if_neg hnew] at hrest
        rw [if_pos (by exact List.mem_cons_self), List.filter_cons_of_neg (by simp)]
        refine (if_pos rfl).trans ?_
        exact (Decoded.bind_ok (hk rfl) _).trans hrest
      · have hmem : name ∈ ((k, j) :: fields).map (·.1) ↔ name ∈ fields.map (·.1) := by
          rw [List.map_cons, List.mem_cons, or_iff_right fun heq => hname heq.symm]
        have hrest := ih hnames hvalue hothers fun h => hfound (hmem.2 h)
        rw [if_congr hmem rfl rfl, List.filter_cons_of_pos (by simpa using hname)]
        refine (if_neg hname).trans ?_
        exact (Decoded.bind_ok (hj hname) _).trans (Decoded.bind_ok hrest _)

/-- **A value beside the fields of another** is restored, if its name is none of theirs. -/
theorem beside_restores {record name : String} {c : Codec α} {other : Codec β} {a : α} {b : β}
    {fields : List (String × Json)} (ha : c.Restores n a) (hb : other.Restores (n + 1) b)
    (hn : n + 1 ≤ Document.surveyDepth) (hfields : other.encode b = .object fields)
    (hnames : (name :: fields.map (·.1)).Nodup) :
    (beside record name c other).Restores (n + 1) (a, b) := by
  obtain ⟨hnew, -⟩ := List.nodup_cons.1 hnames
  have hencode : (beside record name c other).encode (a, b) =
      .object ((name, c.encode a) :: fields) := by
    simp only [beside, hfields]
  -- The other fields can be kept for later because the object of them can.
  have hkept : ∀ {fields' depth}, n < depth →
      (Json.object ((name, c.encode a) :: fields)).Reordered (.object fields') →
        ∀ f ∈ fields', f.1 ≠ name → (Document.ofJson f.2).survey depth = .ok () := by
    intro fields' depth hdepth hj f hf hname
    have hothers : (other.encode b).Reordered _ := hfields.symm ▸ hj.without_field hnew
    have hobject := hb.survey_eq hothers (Nat.succ_lt_succ hdepth)
    rw [Document.ofJson, Document.survey, if_neg (by omega)] at hobject
    exact survey_of_surveyFields hobject f (List.mem_filter.2 ⟨hf, by simpa using hname⟩)
  constructor
  · rw [hencode]
    intro j hj
    obtain ⟨others, fields', rfl, hperm, hothers⟩ := hj.exists_fields
    have hmem : name ∈ fields'.map (·.1) := by
      rw [ReorderedField.map_name hothers]
      exact (hperm.map _).mem_iff.1 List.mem_cons_self
    have htake := takeField_ofFields (hj.nodup_names hnames)
      (fun f hf heq => ha.decode_eq (hj.of_field hnew f hf heq)) (hkept (by omega) hj)
      fun _ => rfl
    rw [if_pos hmem] at htake
    have hrest : (other.encode b).Reordered _ := hfields.symm ▸ hj.without_field hnew
    refine (Decoded.bind_ok htake _).trans ?_
    exact Decoded.bind_ok (congrArg (Except.mapError Problem.ofKept) (hb.decode_eq hrest)) _
  · rw [hencode]
    intro j hj depth hdepth
    obtain ⟨others, fields', rfl, -, -⟩ := hj.exists_fields
    rw [Document.ofJson, Document.survey, if_neg (by omega)]
    apply surveyFields_ofFields
    intro f hf
    by_cases hname : f.1 = name
    · exact ha.survey_eq (hj.of_field hnew f hf hname) (by omega)
    · exact hkept (by omega) hj f hf hname

end Codec

end NetAudit.Json
