import NetAudit.Number.Natural

/-!
# Digits at the front of a text

How far the digits at the front of a text go, and what the digits of a natural number look like.

A number has many numerals, which differ in the zeros in front (`IsNumeral.eq_of_length_eq`). If
something greater than a digit follows, the longer of two numerals is the lesser text
(`lt_of_length_lt`).
-/

namespace NetAudit.Number

variable {ds rest : List Char}

/-- Digits go on to where something else begins. -/
theorem takeWhile_isDigit (hds : ∀ c ∈ ds, c.isDigit = true)
    (hrest : ∀ c ∈ rest.head?, c.isDigit = false) : (ds ++ rest).takeWhile Char.isDigit = ds := by
  have hstop : rest.takeWhile Char.isDigit = [] := by
    cases rest with
    | nil => rfl
    | cons c rest => simp [hrest c rfl]
  rw [List.takeWhile_append_of_pos hds, hstop, List.append_nil]

/-- Without its digits, a text begins with something else. -/
theorem dropWhile_isDigit (hds : ∀ c ∈ ds, c.isDigit = true)
    (hrest : ∀ c ∈ rest.head?, c.isDigit = false) : (ds ++ rest).dropWhile Char.isDigit = rest := by
  have hstop : rest.dropWhile Char.isDigit = rest := by
    cases rest with
    | nil => rfl
    | cons c rest => simp [hrest c rfl]
  rw [List.dropWhile_append_of_pos hds, hstop]

/-- A number is less than the power of ten that has as many zeros as the number has digits. -/
theorem ofDigitChars_lt (h : ∀ c ∈ ds, c.isDigit = true) :
    Nat.ofDigitChars 10 ds 0 < Nat.pow 10 ds.length := by
  induction ds with
  | nil => decide
  | cons c ds ih =>
      obtain ⟨hc, hds⟩ := List.forall_mem_cons.1 h
      have hdigit : c.toNat - '0'.toNat ≤ 9 := by
        have hle := (Char.isDigit_iff_toNat.1 hc).2
        have hzero : '0'.toNat = 48 := rfl
        have hnine : '9'.toNat = 57 := rfl
        omega
      have hrest := ih hds
      have hfirst := Nat.mul_le_mul_left (Nat.pow 10 ds.length) hdigit
      have hpow : Nat.pow 10 (ds.length + 1) = Nat.pow 10 ds.length * 10 := rfl
      rw [Nat.ofDigitChars_cons, Nat.ofDigitChars_eq_ofDigitChars_zero, Nat.mul_zero, Nat.zero_add,
        List.length_cons, hpow]
      show Nat.pow 10 ds.length * (c.toNat - '0'.toNat) + _ < _
      omega

variable {n : Nat}

theorem isDigit_of_mem_toDigits : ∀ c ∈ Nat.toDigits 10 n, c.isDigit = true :=
  fun _ hc => Nat.isDigit_of_mem_toDigits (by decide) (by decide) hc

/-- Only zero is written with a zero in front. -/
theorem tail_eq_nil_of_toDigits (h : Nat.toDigits 10 n = '0' :: ds) : ds = [] := by
  apply List.eq_nil_of_length_eq_zero
  rcases Nat.eq_zero_or_pos ds.length with hnil | hpos
  · exact hnil
  -- Else the digits behind the zero would do.
  have hdigits : ∀ c ∈ ds, c.isDigit = true := fun c hc =>
    isDigit_of_mem_toDigits c (h ▸ List.mem_cons_of_mem _ hc)
  have hvalue : Nat.ofDigitChars 10 ds 0 = n := by
    have hall := Nat.ofDigitChars_toDigits (b := 10) (n := n) (by decide) (by decide)
    rw [h, Nat.ofDigitChars_cons] at hall
    exact hall
  have hlt := ofDigitChars_lt hdigits
  rw [hvalue] at hlt
  have hlength := (Nat.length_toDigits_le_iff (by decide) hpos).2 hlt
  rw [h, List.length_cons] at hlength
  omega

/-! ## Numerals of one number

Numerals are compared as texts, character by character. Equal numbers have numerals that differ in
front only, so the comparison is decided by the first digit that is not zero. -/

theorem digits?_eq_some_iff {bound n : Nat} {ds : List Char} :
    digits? bound ds = some n ↔ ds ≠ [] ∧ (∀ c ∈ ds, c.isDigit = true) ∧
      Nat.ofDigitChars 10 ds 0 = n ∧ n < bound := by
  -- The reader refuses in turn what is no numeral, and then a number that is too large.
  unfold digits?
  split
  · next h =>
    simp only [Bool.or_eq_true, List.isEmpty_iff, Bool.not_eq_true', List.all_eq_false] at h
    simp only [reduceCtorEq, false_iff]
    rintro ⟨hne, hdigits, -⟩
    obtain ⟨c, hc, hnot⟩ := h.resolve_left hne
    exact hnot (hdigits c hc)
  · next h =>
    simp only [Bool.or_eq_true, List.isEmpty_iff, Bool.not_eq_true', not_or,
      Bool.not_eq_false, List.all_eq_true] at h
    split
    · next hlt =>
      simp only [Option.some.injEq]
      constructor
      · rintro rfl
        exact ⟨h.1, h.2, rfl, hlt⟩
      · exact fun hall => hall.2.2.1
    · next hge =>
      simp only [reduceCtorEq, false_iff]
      rintro ⟨-, -, rfl, hlt⟩
      exact hge hlt

variable {d : Char} {es : List Char}

theorem ofDigitChars_cons :
    Nat.ofDigitChars 10 (d :: ds) 0 =
      Nat.pow 10 ds.length * (d.toNat - '0'.toNat) + Nat.ofDigitChars 10 ds 0 := by
  rw [Nat.ofDigitChars_cons, Nat.ofDigitChars_eq_ofDigitChars_zero, Nat.mul_zero, Nat.zero_add]
  rfl

theorem ofDigitChars_cons_zero :
    Nat.ofDigitChars 10 ('0' :: ds) 0 = Nat.ofDigitChars 10 ds 0 := by
  rw [ofDigitChars_cons, Nat.sub_self, Nat.mul_zero, Nat.zero_add]

theorem eq_zero_of_toNat_sub (hd : d.isDigit = true) (h : d.toNat - '0'.toNat = 0) : d = '0' := by
  have hle := (Char.isDigit_iff_toNat.1 hd).1
  exact Char.toNat_inj.1 (by omega)

/-- A numeral that is longer than another of the same number begins with a zero. -/
theorem eq_zero_of_length_lt (hd : d.isDigit = true) (hes : ∀ c ∈ es, c.isDigit = true)
    (h : Nat.ofDigitChars 10 (d :: ds) 0 = Nat.ofDigitChars 10 es 0)
    (hlt : es.length < (d :: ds).length) : d = '0' := by
  apply eq_zero_of_toNat_sub hd
  have hpow : Nat.pow 10 es.length ≤ Nat.pow 10 ds.length :=
    Nat.pow_le_pow_right (by decide) (Nat.le_of_lt_succ hlt)
  rw [ofDigitChars_cons] at h
  rcases Nat.eq_zero_or_pos (d.toNat - '0'.toNat) with hzero | hpos
  · exact hzero
  have hfirst := Nat.mul_le_mul_left (Nat.pow 10 ds.length) (Nat.succ_le_of_lt hpos)
  have hlow : Nat.ofDigitChars 10 es 0 < Nat.pow 10 es.length := ofDigitChars_lt hes
  omega

/-- Digits of the same number in the same places are the same. -/
theorem eq_of_length_eq (hds : ∀ c ∈ ds, c.isDigit = true) (hes : ∀ c ∈ es, c.isDigit = true)
    (h : Nat.ofDigitChars 10 ds 0 = Nat.ofDigitChars 10 es 0) (hlength : ds.length = es.length) :
    ds = es := by
  induction ds generalizing es with
  | nil => exact (List.eq_nil_of_length_eq_zero hlength.symm).symm
  | cons d ds ih =>
      obtain ⟨e, es, rfl⟩ := List.exists_cons_of_length_eq_add_one hlength.symm
      obtain ⟨hd, hds⟩ := List.forall_mem_cons.1 hds
      obtain ⟨he, hes⟩ := List.forall_mem_cons.1 hes
      have hlength : ds.length = es.length := Nat.succ.inj hlength
      rw [ofDigitChars_cons, ofDigitChars_cons, hlength] at h
      have hlow : Nat.ofDigitChars 10 ds 0 < Nat.pow 10 es.length := hlength ▸ ofDigitChars_lt hds
      have hlow' : Nat.ofDigitChars 10 es 0 < Nat.pow 10 es.length := ofDigitChars_lt hes
      -- The rest is below the place of the first digit, so it is the remainder.
      have hfirst := congrArg (· / Nat.pow 10 es.length) h
      have hrest := congrArg (· % Nat.pow 10 es.length) h
      simp only [Nat.mul_add_mod, Nat.mod_eq_of_lt hlow, Nat.mod_eq_of_lt hlow'] at hrest
      have hplace : 0 < Nat.pow 10 es.length := Nat.pow_pos (by decide)
      simp only [Nat.mul_add_div hplace, Nat.div_eq_of_lt hlow, Nat.div_eq_of_lt hlow',
        Nat.add_zero] at hfirst
      have hde : d = e := by
        have hdigit := Char.isDigit_iff_toNat.1 hd
        have hdigit' := Char.isDigit_iff_toNat.1 he
        exact Char.toNat_inj.1 (by omega)
      rw [hde, ih hds hes hrest hlength]

theorem zero_lt_of_isDigit (hd : d.isDigit = true) (hne : d ≠ '0') : '0' < d := by
  have hle := (Char.isDigit_iff_toNat.1 hd).1
  have hne' : d.toNat ≠ '0'.toNat := fun h => hne (Char.toNat_inj.1 h)
  rw [Char.lt_def, UInt32.lt_iff_toNat_lt]
  show '0'.toNat < d.toNat
  omega

/-- **Of two numerals of one number the longer comes first**, if they go on alike with something
that is greater than a zero. -/
theorem lt_of_length_lt (hds : ∀ c ∈ ds, c.isDigit = true) (hes : ∀ c ∈ es, c.isDigit = true)
    (h : Nat.ofDigitChars 10 ds 0 = Nat.ofDigitChars 10 es 0) (hlt : es.length < ds.length)
    {c : Char} (hc : '0' < c) (rest : List Char) : ds ++ c :: rest < es ++ c :: rest := by
  induction ds generalizing es with
  | nil => exact absurd hlt (Nat.not_lt_zero _)
  | cons d ds ih =>
      obtain ⟨hd, hrest⟩ := List.forall_mem_cons.1 hds
      obtain rfl := eq_zero_of_length_lt hd hes h hlt
      rw [ofDigitChars_cons_zero] at h
      cases es with
      | nil => exact List.cons_lt_cons_iff.2 (.inl hc)
      | cons e es =>
          obtain ⟨he, hrest'⟩ := List.forall_mem_cons.1 hes
          rw [List.cons_append, List.cons_append, List.cons_lt_cons_iff]
          by_cases hzero : e = '0'
          · subst hzero
            rw [ofDigitChars_cons_zero] at h
            exact .inr ⟨rfl, ih hrest hrest' h (Nat.lt_of_succ_lt_succ hlt)⟩
          · exact .inl (zero_lt_of_isDigit he hzero)

/-- A text of one or more digits. -/
structure IsNumeral (s : String) : Prop where
  ne_empty : s ≠ ""
  digits : ∀ c ∈ s.toList, c.isDigit = true

instance (s : String) : Decidable (IsNumeral s) :=
  decidable_of_iff (s ≠ "" ∧ s.toList.all Char.isDigit = true)
    ⟨fun h => ⟨h.1, List.all_eq_true.1 h.2⟩, fun h => ⟨h.ne_empty, List.all_eq_true.2 h.digits⟩⟩

/-- The number that a numeral names. -/
def valueOf (s : String) : Nat := Nat.ofDigitChars 10 s.toList 0

theorem IsNumeral.eq_of_length_eq {s t : String} (hs : IsNumeral s) (ht : IsNumeral t)
    (h : valueOf s = valueOf t) (hlength : s.length = t.length) : s = t :=
  String.toList_inj.1 <| Number.eq_of_length_eq hs.digits ht.digits h <| by
    rwa [String.length_toList, String.length_toList]

theorem isNumeral_toString (n : Nat) : IsNumeral (toString n) where
  ne_empty := by
    have hpos := Nat.length_toDigits_pos (b := 10) (n := n)
    rw [Nat.toString_eq_ofList_toDigits]
    intro hempty
    simp [String.ofList_eq_empty_iff.1 hempty] at hpos
  digits := by
    rw [Nat.toString_eq_ofList_toDigits, String.toList_ofList]
    exact isDigit_of_mem_toDigits

@[simp] theorem valueOf_toString (n : Nat) : valueOf (toString n) = n := by
  rw [valueOf, Nat.toString_eq_ofList_toDigits, String.toList_ofList]
  exact Nat.ofDigitChars_toDigits (by decide) (by decide)

end NetAudit.Number
