import NetAudit.Uuid

/-!
# Identifiers that are read back

An identifier is written as thirty-two digits in five groups. The characters that are written tell
this form from the others, so no prefix or brace is looked for behind it, and the digits between
the hyphens are those of the number (`Uuid.ofText?_text`).
-/

namespace NetAudit

namespace Number

/-! ## Hexadecimal digits

Reading is the inverse of writing digit by digit; zeros in front change nothing. -/

variable {ds : List Char} {n : Nat}

theorem hexDigit?_digitChar : ∀ d < 16, hexDigit? d.digitChar = some d := by decide

theorem hexDigits?_cons_zero (ds : List Char) : hexDigits? ('0' :: ds) = hexDigits? ds := by
  have hzero : hexDigit? '0' = some 0 := rfl
  unfold hexDigits?
  rw [List.mapM_cons, hzero]
  cases List.mapM hexDigit? ds with
  | none => rfl
  | some values => rfl

theorem hexDigits?_concat {d : Nat} (hd : d < 16) (h : hexDigits? ds = some n) :
    hexDigits? (ds ++ [d.digitChar]) = some (16 * n + d) := by
  unfold hexDigits? at h ⊢
  rw [List.mapM_append, List.mapM_cons, hexDigit?_digitChar d hd]
  obtain ⟨values, hvalues, rfl⟩ := Option.map_eq_some_iff.1 h
  rw [hvalues]
  exact congrArg some (List.foldl_append ..)

/-- **The digits of a number in base sixteen** are those of its values, and are read back. -/
theorem toDigits_sixteen (n : Nat) : (∀ c ∈ Nat.toDigits 16 n, ∃ d < 16, c = d.digitChar) ∧
    hexDigits? (Nat.toDigits 16 n) = some n := by
  induction n using Nat.strongRecOn with
  | _ n ih =>
      rcases Nat.lt_or_ge n 16 with hlt | hge
      · rw [Nat.toDigits_of_lt_base hlt]
        refine ⟨fun c hc => ⟨n, hlt, List.mem_singleton.1 hc⟩, ?_⟩
        have hread := hexDigits?_concat hlt (show hexDigits? [] = some 0 from rfl)
        rwa [List.nil_append, Nat.mul_zero, Nat.zero_add] at hread
      · have hmod : n % 16 < 16 := Nat.mod_lt n (by decide)
        obtain ⟨hmem, hread⟩ := ih (n / 16) (by omega)
        rw [Nat.toDigits_of_base_le (by decide) hge]
        constructor
        · intro c hc
          rcases List.mem_append.1 hc with hc | hc
          · exact hmem c hc
          · exact ⟨n % 16, hmod, List.mem_singleton.1 hc⟩
        · rw [hexDigits?_concat hmod hread, Nat.div_add_mod]

end Number

namespace Uuid

/-! ## Digits

An identifier is written with zeros in front, so that there are thirty-two digits always. -/

variable (u : Uuid)

theorem length_digits : u.digits.length = 32 := by
  have hle := (Nat.length_toDigits_le_iff (b := 16) (k := 32) (by decide) (by decide)).2 u.bits.isLt
  unfold digits
  simp only [List.length_append, List.length_replicate]
  omega

theorem mem_digits : ∀ c ∈ u.digits, ∃ d < 16, c = d.digitChar := by
  intro c hc
  rcases List.mem_append.1 hc with hc | hc
  · exact ⟨0, by decide, (List.mem_replicate.1 hc).2⟩
  · exact (Number.toDigits_sixteen _).1 c hc

theorem hexDigits?_digits : Number.hexDigits? u.digits = some u.bits.toNat := by
  have hzeros : ∀ k ds, Number.hexDigits? (List.replicate k '0' ++ ds) = Number.hexDigits? ds := by
    intro k ds
    induction k with
    | zero => rfl
    | succ k ih => rw [List.replicate_succ, List.cons_append, Number.hexDigits?_cons_zero, ih]
  exact (hzeros _ _).trans (Number.toDigits_sixteen _).2

/-! ## Groups

The digits are cut into groups of given lengths, with hyphens between them. Splitting at the hyphens
gives the groups again. -/

/-- The groups of digits between the hyphens. -/
def groups : List Nat → List Char → List (List Char)
  | [], ds => [ds]
  | [_], ds => [ds]
  | n :: ns, ds => ds.take n :: groups ns (ds.drop n)

variable {ds : List Char}

theorem groups_ne_nil (ns : List Nat) (ds : List Char) : groups ns ds ≠ [] := by
  unfold groups
  split <;> exact List.cons_ne_nil _ _

theorem hyphenated_eq_intercalate (ns : List Nat) (ds : List Char) :
    hyphenated ns ds = ['-'].intercalate (groups ns ds) := by
  fun_induction hyphenated ns ds with
  | case1 ds => simp [groups]
  | case2 n ds => simp [groups]
  | case3 n ns ds hne ih =>
      obtain ⟨g, gs, hgs⟩ := List.exists_cons_of_ne_nil (groups_ne_nil ns (ds.drop n))
      rw [ih, groups, hgs]
      · simp
      · exact hne

theorem flatten_groups (ns : List Nat) (ds : List Char) : (groups ns ds).flatten = ds := by
  fun_induction groups ns ds with
  | case1 ds => simp
  | case2 n ds => simp
  | case3 n ns ds hne ih => rw [List.flatten_cons, ih, List.take_append_drop]

theorem groupFault?_groups (around index : Nat) {ns : List Nat} (hns : ns ≠ [])
    (h : ds.length = Number.total ns) : groupFault? around index ns (groups ns ds) = none := by
  fun_induction groups ns ds generalizing index with
  | case1 ds => exact absurd rfl hns
  | case2 n ds => exact if_pos h
  | case3 n ns ds hne ih =>
      rw [Number.total] at h
      have htake : (ds.take n).length = n := by
        rw [List.length_take]
        omega
      have hdrop : (ds.drop n).length = Number.total ns := by
        rw [List.length_drop]
        omega
      obtain ⟨m, ms, rfl⟩ := List.exists_cons_of_ne_nil hne
      exact (if_pos htake).trans (ih (index + 1) hne hdrop)

/-! ## The text of digits in groups

All characters but the hyphens are the digits in order. -/

theorem mem_hyphenated (ns : List Nat) : ∀ c ∈ hyphenated ns ds, c = '-' ∨ c ∈ ds := by
  fun_induction hyphenated ns ds with
  | case1 ds => exact fun c hc => .inr hc
  | case2 n ds => exact fun c hc => .inr hc
  | case3 n ns ds hne ih =>
      intro c hc
      rcases List.mem_append.1 hc with hc | hc
      · exact .inr (List.mem_of_mem_take hc)
      · rcases List.mem_cons.1 hc with rfl | hc
        · exact .inl rfl
        · exact (ih c hc).imp_right List.mem_of_mem_drop

/-- Without the hyphens, the digits are left. -/
theorem filter_hyphenated (ns : List Nat) (h : '-' ∉ ds) :
    (hyphenated ns ds).filter (· != '-') = ds := by
  have hself : ∀ {cs : List Char}, '-' ∉ cs → cs.filter (· != '-') = cs := fun hcs =>
    List.filter_eq_self.2 fun c hc => bne_iff_ne.2 fun heq => hcs (heq ▸ hc)
  fun_induction hyphenated ns ds with
  | case1 ds => exact hself h
  | case2 n ds => exact hself h
  | case3 n ns ds hne ih =>
      rw [List.filter_append, hself (mt List.mem_of_mem_take h), List.filter_cons_of_neg (by simp),
        ih (mt List.mem_of_mem_drop h), List.take_append_drop]

theorem length_hyphenated {ns : List Nat} (hns : ns ≠ []) (ds : List Char) :
    (hyphenated ns ds).length + 1 = ds.length + ns.length := by
  fun_induction hyphenated ns ds with
  | case1 ds => exact absurd rfl hns
  | case2 n ds => rfl
  | case3 n ns ds hne ih =>
      have hrest := ih hne
      rw [List.length_drop] at hrest
      rw [List.length_append, List.length_take, List.length_cons, List.length_cons]
      omega

/-! ## Texts

The reader looks for faults first, in the characters, in the length and in the groups. A text that
was written has none of them. -/

/-- What is written of an identifier. -/
def IsWritten (c : Char) : Prop := c = '-' ∨ ∃ d < 16, c = d.digitChar

/-- No such character begins a form with a brace or a prefix, and each takes one byte. -/
theorem IsWritten.plain {c : Char} (h : IsWritten c) : c ≠ '\x7b' ∧ c.toLower ≠ 'u' ∧
    c.utf8Size = 1 ∧ (c = '-' ∨ (Number.hexDigit? c).isSome) := by
  have hdigits : ∀ d < 16, d.digitChar ≠ '\x7b' ∧ d.digitChar.toLower ≠ 'u' ∧
      d.digitChar.utf8Size = 1 ∧ (Number.hexDigit? d.digitChar).isSome := by decide
  rcases h with rfl | ⟨d, hd, rfl⟩
  · decide
  · obtain ⟨hbrace, hletter, hsize, hdigit⟩ := hdigits d hd
    exact ⟨hbrace, hletter, hsize, .inr hdigit⟩

variable {cs : List Char}

theorem byteLength_of_written (h : ∀ c ∈ cs, IsWritten c) : byteLength cs = cs.length := by
  induction cs with
  | nil => rfl
  | cons c cs ih =>
      obtain ⟨hc, hcs⟩ := List.forall_mem_cons.1 h
      rw [byteLength, hc.plain.2.2.1, ih hcs, List.length_cons, Nat.add_comm]

theorem characterFault?_of_written (index : Nat) (h : ∀ c ∈ cs, IsWritten c) :
    characterFault? index cs = none := by
  induction cs generalizing index with
  | nil => rfl
  | cons c cs ih =>
      obtain ⟨hc, hcs⟩ := List.forall_mem_cons.1 h
      rw [characterFault?, if_pos hc.plain.2.2.2, ih (index + 1) hcs]

/-- There is neither a brace nor a prefix. -/
theorem body_of_written (h : ∀ c ∈ cs, IsWritten c) : body cs = (cs, 0) := by
  unfold body
  split
  · exact absurd rfl (h _ List.mem_cons_self).plain.1
  · rw [List.splitAt_eq]
    show (if (cs.take 9).map Char.toLower = "urn:uuid:".toList then _ else _) = _
    refine if_neg fun hprefix => ?_
    cases cs with
    | nil => cases hprefix
    | cons c cs => exact (h c List.mem_cons_self).plain.2.1 (List.cons.inj hprefix).1

theorem fault?_of_written (h : ∀ c ∈ cs, IsWritten c) (hlength : cs.length = 36)
    (hgroups : groupsFault? false 0 0 cs = none) : fault? cs = none := by
  have hbytes := byteLength_of_written h
  unfold fault?
  simp only [body_of_written h, hbytes, hlength, hgroups]
  rfl

/-- **The text of an identifier names that identifier.** -/
theorem ofText?_text : ofText? u.text = .ok u := by
  have hlength := u.length_digits
  have hwritten : ∀ c ∈ u.text.toList, IsWritten c := by
    intro c hc
    rw [text, String.toList_ofList] at hc
    exact (mem_hyphenated _ c hc).imp_right (u.mem_digits c)
  have hnohyphen : '-' ∉ u.digits := by
    intro hmem
    obtain ⟨d, hd, heq⟩ := u.mem_digits _ hmem
    exact absurd heq ((by decide : ∀ d < 16, '-' ≠ Nat.digitChar d) d hd)
  -- Digits hold no hyphen, so the text is split where the hyphens were put.
  have hgroups : groupsFault? false 0 0 u.text.toList = none := by
    have hsplit : u.text.toList.splitOn '-' = groups groupLengths u.digits := by
      rw [text, String.toList_ofList, hyphenated_eq_intercalate]
      apply List.splitOn_intercalate
      · intro g hg hmem
        apply hnohyphen
        rw [← flatten_groups groupLengths u.digits]
        exact List.mem_flatten_of_mem hg hmem
      · exact groups_ne_nil _ _
    unfold groupsFault?
    simp only [characterFault?_of_written 0 hwritten, hsplit]
    exact groupFault?_groups 0 0 (by decide) hlength
  have htext : u.text.toList.length = 36 := by
    have hsum := length_hyphenated (show groupLengths ≠ [] by decide) u.digits
    rw [hlength] at hsum
    rw [text, String.toList_ofList]
    exact Nat.succ.inj hsum
  unfold ofText?
  have hfilter : u.text.toList.filter (· != '-') = u.digits := by
    rw [text, String.toList_ofList, filter_hyphenated _ hnohyphen]
  simp only [fault?_of_written hwritten htext hgroups, body_of_written hwritten, hfilter,
    hexDigits?_digits, Option.getD_some, ofNat, BitVec.ofNat_toNat, BitVec.setWidth_eq]

end Uuid

end NetAudit
