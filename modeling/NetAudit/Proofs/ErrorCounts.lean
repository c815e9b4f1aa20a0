import Mathlib.Data.List.Basic
import Mathlib.Data.List.TakeWhile
import NetAudit.Proofs.Digits
import NetAudit.Proofs.OrderedMap
import NetAudit.Summary

/-!
# Counts that are written as a list

Counts of tags are written as a list of `tag:count`. Tags are free texts, so they may have colons
and digits in them: it is the last colon of an item that tells a tag from its count. `Malformed`
says which items are no counts of a tag, without reading them; reading passes over just these
(`parseErrorCount?_eq_none_iff`). Main statement: `Summary.errorCounts_restored`.
-/

namespace NetAudit

open Number

/-! ## Numbers with a sign

A count may have a plus sign in front, but no other sign and no blank. -/

/-- A text is a count: a numeral, with or without a plus sign, of a number of 64 bits. -/
def IsCount (s : String) : Prop :=
  ∃ numeral, (s = numeral ∨ s = "+" ++ numeral) ∧ IsNumeral numeral ∧ valueOf numeral < countBound

variable {s item : String} {cs before after : List Char} {n : Nat}

theorem digits?_ne_none_iff :
    digits? countBound s.toList ≠ none ↔ IsNumeral s ∧ valueOf s < countBound := by
  rw [Option.ne_none_iff_exists']
  simp only [digits?_eq_some_iff]
  constructor
  · rintro ⟨n, hne, hdigits, rfl, hlt⟩
    exact ⟨⟨by simpa using hne, hdigits⟩, hlt⟩
  · rintro ⟨⟨hne, hdigits⟩, hlt⟩
    exact ⟨valueOf s, by simpa using hne, hdigits, rfl, hlt⟩

/-- Just the counts are read as one. -/
theorem natural?_ne_none_iff : natural? countBound s.toList ≠ none ↔ IsCount s := by
  constructor
  · intro h
    unfold natural? at h
    split at h
    · next ds hsign =>
      have hs : s = "+" ++ String.ofList ds := by
        rw [← String.toList_inj, hsign]
        simp
      rw [← String.toList_ofList (l := ds)] at h
      exact ⟨String.ofList ds, .inr hs, digits?_ne_none_iff.1 h⟩
    · exact ⟨s, .inl rfl, digits?_ne_none_iff.1 h⟩
  · rintro ⟨numeral, rfl | rfl, hcount⟩
    · have hread := digits?_ne_none_iff.2 hcount
      unfold natural?
      split
      · next ds hsign =>
        -- A numeral does not begin with a sign.
        have hdigit := hcount.1.digits '+' (hsign ▸ List.mem_cons_self)
        exact absurd hdigit (by decide)
      · exact hread
    · have hsign : ("+" ++ numeral).toList = '+' :: numeral.toList := String.toList_append
      rw [hsign]
      exact digits?_ne_none_iff.2 hcount

/-! ## The last colon

The text is gone through from its end, and a colon in the tag does no harm. -/

theorem forall_ne_colon (h : ':' ∉ cs) : ∀ c ∈ cs.reverse, (c != ':') = true := by
  intro c hc
  rw [bne_iff_ne]
  exact fun heq => h (heq ▸ List.mem_reverse.1 hc)

theorem cutLastColon_append (h : ':' ∉ after) :
    cutLastColon (before ++ ':' :: after) = some (before, after) := by
  have hreverse : (before ++ ':' :: after).reverse = after.reverse ++ ':' :: before.reverse := by
    rw [List.reverse_append, List.reverse_cons, List.append_assoc]
    rfl
  have hafter := forall_ne_colon h
  unfold cutLastColon
  rw [hreverse, List.dropWhile_append_of_pos hafter, List.takeWhile_append_of_pos hafter]
  simp

theorem cutLastColon_eq_none (h : ':' ∉ cs) : cutLastColon cs = none := by
  unfold cutLastColon
  rw [List.dropWhile_eq_nil_iff.2 (forall_ne_colon h)]

/-! ## Items

An item is read just if it is not malformed. That an item is malformed is said of its text alone. -/

/-- What stands behind the last colon of an item is its count. -/
theorem parseErrorCount?_append (tag : String) {suffix : String} (h : ':' ∉ suffix.toList) :
    parseErrorCount? (tag ++ ":" ++ suffix) =
      (natural? countBound suffix.toList).map fun n => (tag, n) := by
  have hitem : (tag ++ ":" ++ suffix).toList = tag.toList ++ ':' :: suffix.toList := by
    rw [String.toList_append, String.toList_append, List.append_assoc]
    rfl
  unfold parseErrorCount?
  rw [hitem, cutLastColon_append h, Option.map_eq_bind]
  simp only [Option.bind_eq_bind, Option.bind_some, String.ofList_toList]
  rfl

/-- An item without a colon, or with something else than a count behind its last colon. -/
def Malformed (item : String) : Prop :=
  ':' ∉ item.toList ∨
    ∃ tag suffix, item = tag ++ ":" ++ suffix ∧ ':' ∉ suffix.toList ∧ ¬IsCount suffix

/-- A text that has a colon has a last one. -/
theorem exists_last_colon (h : ':' ∈ item.toList) :
    ∃ tag suffix, item = tag ++ ":" ++ suffix ∧ ':' ∉ suffix.toList := by
  -- The last colon is the first one that is met from behind.
  obtain ⟨after, before, hreverse, hafter⟩ := List.eq_append_cons_of_mem (List.mem_reverse.2 h)
  refine ⟨String.ofList before.reverse, String.ofList after.reverse, ?_, ?_⟩
  · have hchars : item.toList = before.reverse ++ ':' :: after.reverse := by
      rw [← List.reverse_reverse item.toList, hreverse, List.reverse_append, List.reverse_cons,
        List.append_assoc]
      rfl
    rw [← String.toList_inj, hchars]
    simp
  · rwa [String.toList_ofList, List.mem_reverse]

/-- **Just the malformed items are passed over.** -/
theorem parseErrorCount?_eq_none_iff : parseErrorCount? item = none ↔ Malformed item := by
  constructor
  · intro h
    by_cases hcolon : ':' ∈ item.toList
    · obtain ⟨tag, suffix, rfl, hsuffix⟩ := exists_last_colon hcolon
      rw [parseErrorCount?_append tag hsuffix, Option.map_eq_none_iff] at h
      exact .inr ⟨tag, suffix, rfl, hsuffix, fun hcount => natural?_ne_none_iff.2 hcount h⟩
    · exact .inl hcolon
  · rintro (hcolon | ⟨tag, suffix, rfl, hsuffix, hcount⟩)
    · unfold parseErrorCount?
      rw [cutLastColon_eq_none hcolon]
      rfl
    · rw [parseErrorCount?_append tag hsuffix, Option.map_eq_none_iff]
      exact not_not.1 (mt natural?_ne_none_iff.1 hcount)

instance (item : String) : Decidable (Malformed item) :=
  decidable_of_iff _ parseErrorCount?_eq_none_iff

/-- A tag and its count are read back, whatever the tag. -/
theorem parseErrorCount?_toString (tag : String) (h : n < countBound) :
    parseErrorCount? (tag ++ ":" ++ toString n) = some (tag, n) := by
  have hcolon : ':' ∉ (toString n).toList :=
    fun hmem => absurd ((isNumeral_toString n).digits ':' hmem) (by decide)
  rw [parseErrorCount?_append tag hcolon, Nat.toString_eq_ofList_toDigits, String.toList_ofList,
    natural?_repr h]
  rfl

/-! ## Lists of items

Malformed items may stand anywhere among the items that are written (`Strewn`). -/

/-- The second list is the first one with malformed items put in anywhere. -/
inductive Strewn : List String → List String → Prop where
  | nil : Strewn [] []
  | keep (item : String) {items strewn : List String} (h : Strewn items strewn) :
      Strewn (item :: items) (item :: strewn)
  | junk {item : String} (hitem : Malformed item) {items strewn : List String}
      (h : Strewn items strewn) : Strewn items (item :: strewn)

/-- Malformed items do not change what is read of the others. -/
theorem Strewn.parseErrorCounts_eq {items strewn : List String} (h : Strewn items strewn) :
    parseErrorCounts strewn = parseErrorCounts items := by
  have hread : strewn.filterMap parseErrorCount? = items.filterMap parseErrorCount? := by
    induction h with
    | nil => rfl
    | keep item _ ih => rw [List.filterMap_cons, List.filterMap_cons, ih]
    | junk hitem _ ih =>
        rw [List.filterMap_cons, parseErrorCount?_eq_none_iff.2 hitem, ih]
  unfold parseErrorCounts
  rw [hread]

namespace Summary

/-- **Counts are restored from the list of them**, whatever the tags, and whatever malformed items
are put in between. -/
theorem errorCounts_restored (s : Summary) (hcounts : ∀ n ∈ s.errorCounts.values, n < countBound) :
    parseErrorCounts s.errorCountList = s.errorCounts ∧
      ∀ items, Strewn s.errorCountList items → parseErrorCounts items = s.errorCounts := by
  have hread : s.errorCountList.filterMap parseErrorCount? = s.errorCounts.toList := by
    have hitem : ∀ e ∈ s.errorCounts.toList,
        parseErrorCount? (e.1 ++ ":" ++ toString e.2) = some e := by
      intro e he
      exact parseErrorCount?_toString e.1 (hcounts e.2 (List.mem_map_of_mem he))
    have hitems : s.errorCountList.filterMap parseErrorCount? = s.errorCounts.toList.filterMap
        fun e => parseErrorCount? (e.1 ++ ":" ++ toString e.2) := List.filterMap_map
    rw [hitems, List.filterMap_congr hitem, List.filterMap_some]
  have hlist : parseErrorCounts s.errorCountList = s.errorCounts :=
    OrderedMap.ofList_eq_of_perm (hread ▸ .refl _)
  exact ⟨hlist, fun items hitems => hitems.parseErrorCounts_eq.trans hlist⟩

/-- Tags of colons and digits, the largest count, and items that are nearly counts. -/
theorem errorCounts_restored_colons :
    let s : Summary :=
      { new .ping with errorCounts := .ofList [("", 0), (":7", 1), ("é:", countBound - 1)] }
    let items := ["no colon", ":0", "a:", "a:+", ":7:1", "a: 5", "é::18446744073709551615",
      "a:5:", "a:18446744073709551616"]
    (∀ n ∈ s.errorCounts.values, n < countBound) ∧ Strewn s.errorCountList items ∧
      parseErrorCounts s.errorCountList = s.errorCounts ∧
      parseErrorCounts items = s.errorCounts := by
  intro s items
  have hcounts : ∀ n ∈ s.errorCounts.values, n < countBound := by decide
  have hlist : s.errorCountList = [":0", ":7:1", "é::18446744073709551615"] := by decide
  have hitems : Strewn s.errorCountList items := by
    rw [hlist]
    exact .junk (by decide) <| .keep _ <| .junk (by decide) <| .junk (by decide) <| .keep _ <|
      .junk (by decide) <| .keep _ <| .junk (by decide) <| .junk (by decide) .nil
  have hrestored := errorCounts_restored s hcounts
  exact ⟨hcounts, hitems, hrestored.1, hrestored.2 items hitems⟩

end Summary

end NetAudit
