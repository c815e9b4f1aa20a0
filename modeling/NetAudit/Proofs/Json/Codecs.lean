import NetAudit.Proofs.Calendar.Documents
import NetAudit.Proofs.Json.Reordered
import NetAudit.Proofs.Json.Texts
import NetAudit.Proofs.OrderedMap
import NetAudit.Proofs.Uuid

/-!
# Values that are found again

What a codec writes of a value it also finds, whatever the order of the fields: `Codec.Restores`
says so of one value, because most codecs restore only what fits, such as numbers below a bound.
There is a lemma for each way to make a codec, so that what a codec restores follows from how it is
made.

A value that is kept for later is looked through first, with a limit to its depth. So `Restores`
also says how deep arrays and objects are nested in what is written.
-/

namespace NetAudit.Json

/-! ## Numbers

The digits of a number below its bound are read without overflow, and with a sign in front they are
the integer again. -/

namespace Numeral

open Number

/-- All digits are taken if the significand they make fits. -/
theorem accumulate_of_lt {ds : List Char} {significand : Nat}
    (h : Nat.ofDigitChars 10 ds significand < countBound) :
    accumulate significand ds = (Nat.ofDigitChars 10 ds significand, 0) := by
  induction ds generalizing significand with
  | nil => rfl
  | cons d ds ih =>
      rw [Nat.ofDigitChars_cons] at h ⊢
      have hfirst : 10 * significand + (d.toNat - '0'.toNat) < countBound := by
        refine Nat.lt_of_le_of_lt ?_ h
        rw [Nat.ofDigitChars_eq_ofDigitChars_zero]
        exact Nat.le_trans (Nat.le_mul_of_pos_left _ (Nat.pow_pos (by decide)))
          (Nat.le_add_right _ _)
      rw [accumulate]
      exact (if_pos hfirst).trans (ih h)

/-- **A whole number of 64 bits is read back**, with a sign or without. -/
theorem value_toDigits {n : Int} (hlow : -(signBit : Int) ≤ n) (hhigh : n < countBound) :
    value ⟨n < 0, Nat.toDigits 10 n.natAbs, none, none⟩ = .ok (.whole n) := by
  have hdigits : Nat.ofDigitChars 10 (Nat.toDigits 10 n.natAbs) 0 = n.natAbs :=
    Nat.ofDigitChars_toDigits (by decide) (by decide)
  have hfits : n.natAbs < countBound := by
    have hsign : signBit < countBound := by decide
    omega
  have hall := accumulate_of_lt (hdigits.symm ▸ hfits)
  rw [hdigits] at hall
  unfold value
  simp only [hall]
  rw [if_pos]
  · by_cases hneg : n < 0
    · simp only [hneg, decide_true, if_true]
      congr 2
      omega
    · simp only [hneg, decide_false]
      exact congrArg (fun k => Except.ok (Quantity.whole k)) (by simp; omega)
  · refine ⟨rfl, rfl, trivial, fun hneg => ?_⟩
    have hneg : n < 0 := by simpa using hneg
    omega

end Numeral

/-! ## What a codec restores

`Codec.Restores` is said of a codec and one value. From it follows that both texts of the value are
read back (`Codec.ReadsBack`). -/

namespace Decoded

variable {α β : Type}

theorem bind_ok {x : Decoded α} {a : α} (h : x = .ok a) (f : α → Decoded β) : x >>= f = f a := by
  rw [h]
  rfl

end Decoded

namespace Codec

/-- What is written of `a` is found again, in whatever order the fields of objects come. It can also
be kept for later if arrays and objects may stand more than `nesting` deep. -/
structure Restores {α : Type} (c : Codec α) (nesting : Nat) (a : α) : Prop where
  decode_eq : ∀ {j : Json}, (c.encode a).Reordered j → c.decode (.ofJson j) = .ok a
  survey_eq : ∀ {j : Json}, (c.encode a).Reordered j → ∀ {depth : Nat}, nesting < depth →
    (Document.ofJson j).survey depth = .ok ()

variable {α β : Type} {c : Codec α} {n : Nat} {a : α} {j : Json}

theorem read_of_decode {s : String} (hs : Json.read s = ⟨.ofJson j, false⟩)
    (hj : c.decode (.ofJson j) = .ok a) : c.read s = .ok a := by
  unfold Codec.read
  rw [hs]
  exact Decoded.bind_ok hj _

/-- The value is read back from the text of what is written, from the text that is printed of it,
and from either with the fields of objects in any order. -/
structure ReadsBack {α : Type} (c : Codec α) (a : α) : Prop where
  text : c.read (c.encode a).text = .ok a
  printed : c.read (c.encode a).sorted.pretty = .ok a
  reordered : ∀ j : Json, (c.encode a).Reordered j →
    c.read j.text = .ok a ∧ c.read j.pretty = .ok a

/-- **A value that is restored is read back.** -/
theorem Restores.readsBack (h : c.Restores n a) : c.ReadsBack a := by
  have hread : ∀ j : Json, (c.encode a).Reordered j →
      c.read j.text = .ok a ∧ c.read j.pretty = .ok a := fun j hj =>
    ⟨read_of_decode (Json.read_text j) (h.decode_eq hj),
      read_of_decode (Json.read_pretty j) (h.decode_eq hj)⟩
  exact ⟨(hread _ (reordered_self _)).1, (hread _ (reordered_sorted _)).2, hread⟩

/-! ### Scalars

A number is restored within the bounds that its codec has; all other scalars always are. -/

theorem string_restores (n : Nat) (s : String) : string.Restores n s where
  decode_eq h := by
    cases (h : (Json.string s).Reordered _)
    rfl
  survey_eq h _ _ := by
    cases (h : (Json.string s).Reordered _)
    rfl

theorem bool_restores (n : Nat) (b : Bool) : bool.Restores n b where
  decode_eq h := by
    cases (h : (Json.bool b).Reordered _)
    rfl
  survey_eq h _ _ := by
    cases (h : (Json.bool b).Reordered _)
    rfl

theorem integer_restores (n : Nat) (wanted : String) {low high k : Int} (hlow : low ≤ k)
    (hhigh : k < high) (hfits : -(Number.signBit : Int) ≤ k ∧ k < Number.countBound) :
    (integer wanted low high).Restores n k := by
  have hvalue := Numeral.value_toDigits hfits.1 hfits.2
  constructor
  · intro j h
    cases (h : (Json.number k).Reordered _)
    rw [Document.ofJson]
    simp only [integer, hvalue]
    exact if_pos ⟨hlow, hhigh⟩
  · intro j h depth _
    cases (h : (Json.number k).Reordered _)
    show discard (Decoded.textual (Document.found (.number _))) = _
    rw [Document.found, hvalue]
    rfl

theorem instant_restores (n : Nat) (t : Calendar.Instant) : instant.Restores n t where
  decode_eq h := by
    cases (h : (Json.string t.document).Reordered _)
    have htext : Literal.decode (.ok t.document) = .ok t.document := rfl
    simp only [instant, Document.ofJson, Decoded.bind_ok htext,
      Calendar.Instant.ofDocument?_document]
    rfl
  survey_eq h _ _ := by
    cases (h : (Json.string t.document).Reordered _)
    rfl

theorem uuid_restores (n : Nat) (u : Uuid) : uuid.Restores n u where
  decode_eq h := by
    cases (h : (Json.string u.text).Reordered _)
    have htext : Literal.decode (.ok u.text) = .ok u.text := rfl
    simp only [uuid, Document.ofJson, Decoded.bind_ok htext, Uuid.ofText?_text]
    rfl
  survey_eq h _ _ := by
    cases (h : (Json.string u.text).Reordered _)
    rfl

theorem Restores.map {f : α → β} {g : β → α} {b : β} (h : c.Restores n (g b)) (hb : f (g b) = b) :
    (c.map f g).Restores n b where
  decode_eq hj := by
    show (c.decode _).map f = _
    rw [h.decode_eq hj, Except.map, hb]
  survey_eq hj := h.survey_eq hj

theorem natural_restores (n : Nat) (wanted : String) {bound k : Nat} (h : k < bound)
    (hbound : bound ≤ Number.countBound) : (natural wanted bound).Restores n k := by
  refine Restores.map (integer_restores n wanted (k := (k : Int)) ?_ ?_ ?_) rfl
  all_goals omega

theorem count_restores (n : Nat) {k : Nat} (h : k < Number.countBound) : count.Restores n k :=
  natural_restores n "u64" h (Nat.le_refl _)

theorem size_restores (n : Nat) {k : Nat} (h : k < Number.countBound) : size.Restores n k :=
  natural_restores n "usize" h (Nat.le_refl _)

theorem iterations_restores (n : Nat) {k : Nat} (h : k < Number.indexBound) :
    iterations.Restores n k :=
  natural_restores n "u32" h (by decide)

/-! ### Options

None is written as `null`, so a value must not be. -/

/-- A value that is not written as `null` is told from none. -/
theorem option_restores {o : Option α} (h : ∀ a ∈ o, c.Restores n a ∧ c.encode a ≠ .null) :
    c.option.Restores n o := by
  cases o with
  | none =>
      constructor
      · intro j hj
        cases (hj : Json.null.Reordered j)
        rfl
      · intro j hj depth _
        cases (hj : Json.null.Reordered j)
        rfl
  -- A value in another order of its fields is not `null` either.
  | some a =>
      obtain ⟨hrestores, hne⟩ := h a rfl
      refine ⟨fun {j} hj => ?_, hrestores.survey_eq⟩
      have hfound := congrArg (Except.map some) (hrestores.decode_eq hj)
      cases j with
      | null =>
          generalize hwritten : c.encode a = written at hne hj
          cases (hwritten ▸ hj : written.Reordered .null)
          exact absurd rfl hne
      | _ => exact hfound

/-! ### Lists and maps

Items and fields are restored one by one. The reader looks at what is behind a problem as well, so
what can be kept for later is shown first. -/

theorem surveyItems_ofItems {js : List Json} {depth : Nat}
    (h : ∀ j ∈ js, (Document.ofJson j).survey depth = .ok ()) :
    Document.surveyItems depth none (Document.ofItems js) = .ok () := by
  induction js with
  | nil => rfl
  | cons j js ih =>
      obtain ⟨hj, hjs⟩ := List.forall_mem_cons.1 h
      rw [Document.ofItems, Document.surveyItems, Decoded.bind_ok hj, ih hjs]

theorem surveyFields_ofFields {fs : List (String × Json)} {depth : Nat}
    (h : ∀ f ∈ fs, (Document.ofJson f.2).survey depth = .ok ()) :
    Document.surveyFields depth none (Document.ofFields fs) = .ok () := by
  induction fs with
  | nil => rfl
  | cons f fs ih =>
      obtain ⟨hf, hfs⟩ := List.forall_mem_cons.1 h
      rw [Document.ofFields, Document.surveyFields]
      exact (Decoded.bind_ok hf _).trans (ih hfs)

theorem decodeItems_ofItems {as : List α} {js : List Json} (h : ∀ a ∈ as, c.Restores n a)
    (hjs : List.Forall₂ (fun a j => (c.encode a).Reordered j) as js) :
    decodeItems c none (Document.ofItems js) = .ok as := by
  induction hjs with
  | nil => rfl
  | cons hj _ ih =>
      obtain ⟨ha, has⟩ := List.forall_mem_cons.1 h
      rw [Document.ofItems, decodeItems, Decoded.bind_ok (ha.decode_eq hj),
        Decoded.bind_ok (ih has)]
      rfl

/-- Fields that can be kept for later together can be kept one by one. -/
theorem survey_of_surveyFields {fs : List (String × Json)} {depth : Nat}
    (h : Document.surveyFields depth none (Document.ofFields fs) = .ok ()) :
    ∀ f ∈ fs, (Document.ofJson f.2).survey depth = .ok () := by
  induction fs with
  | nil => exact fun f hf => absurd hf List.not_mem_nil
  | cons f fs ih =>
      have hfirst : (Document.ofJson f.2).survey depth = .ok () ∧
          Document.surveyFields depth none (Document.ofFields fs) = .ok () := by
        have hall : ((Document.ofJson f.2).survey depth >>= fun _ =>
            Document.surveyFields depth none (Document.ofFields fs)) = .ok () := h
        cases hsurvey : (Document.ofJson f.2).survey depth with
        | error problem =>
            rw [hsurvey] at hall
            cases hall
        | ok u => exact ⟨rfl, (Decoded.bind_ok hsurvey _).symm.trans hall⟩
      exact List.forall_mem_cons.2 ⟨hfirst.1, ih hfirst.2⟩

/-- A list is restored if all that stands in it is. -/
theorem list_restores {as : List α} (h : ∀ a ∈ as, c.Restores n a) :
    (list c).Restores (n + 1) as := by
  constructor
  · intro j hj
    obtain ⟨js, rfl, hjs⟩ :=
      Reordered.exists_items (hj : (Json.array (as.map c.encode)).Reordered j)
    exact decodeItems_ofItems h (List.forall₂_map_left_iff.1 hjs)
  · intro j hj depth hdepth
    obtain ⟨js, rfl, hjs⟩ :=
      Reordered.exists_items (hj : (Json.array (as.map c.encode)).Reordered j)
    rw [Document.ofJson, Document.survey, if_neg (by omega)]
    apply surveyItems_ofItems
    intro i hi
    obtain ⟨a, ha, hr⟩ := exists_mem_of_forall₂ (List.forall₂_map_left_iff.1 hjs) hi
    exact (h a ha).survey_eq hr (by omega)

/-- An entry of a map as a field of an object. -/
def entryField (c : Codec α) (e : String × α) : String × Json := (e.1, c.encode e.2)

theorem decodeEntries_ofFields {es : List (String × α)} {fs : List (String × Json)}
    (h : ∀ e ∈ es, c.Restores n e.2)
    (hfs : List.Forall₂ (fun e f => ReorderedField (c.entryField e) f) es fs) :
    decodeEntries c none (Document.ofFields fs) = .ok es := by
  induction hfs with
  | nil => rfl
  | cons hf _ ih =>
      obtain ⟨he, hes⟩ := List.forall_mem_cons.1 h
      cases hf with
      | value _ hj =>
          rw [Document.ofFields, decodeEntries]
          refine (Decoded.bind_ok (he.decode_eq hj) _).trans ?_
          rw [Decoded.bind_ok (ih hes)]
          rfl

/-- A map is restored if all its values are. -/
theorem dict_restores {m : OrderedMap String α} (h : ∀ e ∈ m.toList, c.Restores n e.2) :
    (dict c).Restores (n + 1) m := by
  constructor
  · intro j hj
    obtain ⟨others, fs, rfl, hperm, hfs⟩ := Reordered.exists_fields
      (hj : (Json.object (m.toList.map c.entryField)).Reordered j)
    -- Fields in another order are those of entries in another order, and a map sorts them again.
    obtain ⟨es, rfl, hes⟩ :=
      (congrFun₂ (List.eq_map_comp_perm c.entryField) others m.toList).mpr hperm.symm
    have hread := decodeEntries_ofFields (fun e he => h e (hes.mem_iff.1 he))
      (List.forall₂_map_left_iff.1 hfs)
    show (decodeEntries c none _).map OrderedMap.ofList = _
    rw [hread, Except.map, OrderedMap.ofList_eq_of_perm hes]
  · intro j hj depth hdepth
    obtain ⟨others, fs, rfl, hperm, hfs⟩ := Reordered.exists_fields
      (hj : (Json.object (m.toList.map c.entryField)).Reordered j)
    rw [Document.ofJson, Document.survey, if_neg (by omega)]
    apply surveyFields_ofFields
    intro f hf
    obtain ⟨g, hg, hr⟩ := exists_mem_of_forall₂ hfs hf
    obtain ⟨e, he, rfl⟩ := List.mem_map.1 (hperm.mem_iff.2 hg)
    exact (h e he).survey_eq hr.reordered (by omega)

end Codec

end NetAudit.Json
