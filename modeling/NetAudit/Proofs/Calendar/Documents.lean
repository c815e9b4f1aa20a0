import NetAudit.Calendar.Lenient
import NetAudit.Proofs.Calendar.Texts
import NetAudit.Proofs.Digits

/-!
# Instants that documents give back

The grammar of documents is looser than that of requests and reads signed years of any length, so
every instant is read back from a document, up to the ends of the calendar and leap seconds
included (`Instant.ofDocument?_document`). No white space is written, and there is nothing for the
looser grammar to pass over.
-/

namespace NetAudit.Calendar

/-! ## Bounds

The years of the calendar have at most six digits, and fit into the numbers that a reader takes. -/

theorem daysBeforeYear_mono {year later : Int} (h : year ≤ later) :
    daysBeforeYear year ≤ daysBeforeYear later := by
  unfold daysBeforeYear
  omega

/-- The years that the calendar reaches. -/
theorem Instant.year_bounds (t : Instant) : -262143 ≤ t.date.year ∧ t.date.year ≤ 262142 := by
  obtain ⟨hle, hlt⟩ := Date.yearOfDay_spec (t.second / 86400 + epochDay)
  have hyear : t.date.year = Date.yearOfDay (t.second / 86400 + epochDay) := rfl
  have hends : (daysBeforeYear (-262143) - epochDay) * 86400 = firstSecond ∧
      (daysBeforeYear 262143 - epochDay) * 86400 = lastSecond + 1 := by decide
  have hfirst := t.first_le
  have hlast := t.le_last
  rw [hyear]
  constructor
  · apply Int.not_lt.1
    intro hbefore
    have hmono := daysBeforeYear_mono (Int.add_one_le_of_lt hbefore)
    omega
  · apply Int.not_lt.1
    intro hafter
    have hmono : daysBeforeYear 262143 ≤ _ := daysBeforeYear_mono (Int.add_one_le_of_lt hafter)
    omega

namespace Scan

variable {c : Char} {cs rest : List Char}

/-! ## Steps

The looser grammar passes over blanks before each number. In a text that was written there are none,
so each of its steps does what the step of the stricter grammar does. -/

theorem blanks_ok (h : Text.isBlank c = false) (cs : List Char) :
    blanks (c :: cs) = .ok ((), c :: cs) := by
  show Except.ok ((), Text.trimLeft (c :: cs)) = _
  rw [Text.trimLeft, List.dropWhile_cons, h]
  rfl

theorem set_ok (cs rest : List Char) : (set rest : Scan Unit) cs = .ok ((), rest) := rfl

theorem blanks_nil : blanks [] = .ok ((), []) := rfl

theorem mark_ok (h : Text.isBlank c = false) (cs : List Char) :
    mark c (c :: cs) = .ok ((), cs) := by
  unfold mark
  rw [bind_ok (blanks_ok h cs), bind_ok (char_ok (by simp) cs)]
  rfl

/-- Digits are read up to the limit, or to where something else begins. -/
theorem number_ok {ds : List Char} (hne : ds ≠ []) (hds : ∀ c ∈ ds, c.isDigit = true)
    {limit : Option Nat} (h : limit = some ds.length ∨
      limit = none ∧ ∀ c ∈ rest.head?, c.isDigit = false) :
    number limit (ds ++ rest) = .ok (Nat.ofDigitChars 10 ds 0, rest) := by
  obtain ⟨c, cs, rfl⟩ := List.exists_cons_of_ne_nil hne
  have hdrop : (c :: cs ++ rest).drop (c :: cs).length = rest := List.drop_left
  rcases h with rfl | ⟨rfl, hrest⟩
  · have htake : ((c :: cs ++ rest).takeWhile Char.isDigit).take (c :: cs).length = c :: cs := by
      rw [List.takeWhile_append_of_pos hds, List.take_left]
    unfold number
    rw [bind_ok (get_ok _)]
    simp only [htake, hdrop]
    rfl
  · have htake : (c :: cs ++ rest).takeWhile Char.isDigit = c :: cs :=
      Number.takeWhile_isDigit hds hrest
    unfold number
    rw [bind_ok (get_ok _)]
    simp only [htake, hdrop]
    rfl

theorem number_padded {width n : Nat} (hwidth : 0 < width) (h : n < 10 ^ width)
    (rest : List Char) : number (some width) ((padded width n).toList ++ rest) = .ok (n, rest) := by
  have hlength := length_padded hwidth h
  have hread : number (some _) (_ ++ rest) = _ :=
    number_ok (List.ne_nil_of_length_pos (by omega)) (isDigit_of_mem_padded width n) (.inl rfl)
  rwa [hlength, ofDigitChars_padded] at hread

/-- **A year is read back**, with a sign or without. -/
theorem year_yearText {y : Int} (hlow : -0x80000000 ≤ y) (hhigh : y < 0x80000000)
    (hrest : ∀ c ∈ rest.head?, c.isDigit = false) :
    year ((yearText y).toList ++ rest) = .ok (y, rest) := by
  obtain ⟨c, cs, hcs, hblank, hdigit⟩ := yearText_cons y
  have hstart : blanks ((yearText y).toList ++ rest) = .ok ((), (yearText y).toList ++ rest) := by
    rw [hcs]
    exact blanks_ok hblank _
  have hpos : 0 < (padded 4 y.natAbs).toList.length :=
    Nat.lt_of_lt_of_le (by decide) (le_length_padded 4 y.natAbs)
  have hsigned := number_ok (List.ne_nil_of_length_pos hpos) (isDigit_of_mem_padded 4 y.natAbs)
    (.inr ⟨rfl, hrest⟩)
  rw [ofDigitChars_padded] at hsigned
  have hbounds : (decide (-0x80000000 ≤ y) && decide (y < 0x80000000)) = true := by
    simp [hlow, hhigh]
  unfold year
  rw [bind_ok hstart, bind_ok (get_ok _)]
  -- A plain year has four digits and no sign; any other has a sign, and the reader goes by that.
  by_cases hplain : 0 ≤ y ∧ y ≤ 9999
  · have hvalue : ((y.natAbs : Nat) : Int) = y := Int.natAbs_of_nonneg hplain.1
    have htext : yearText y = padded 4 y.natAbs := by
      rw [yearText, if_neg (by omega), if_pos hplain.2]
    have hread := number_padded (by decide) (show y.natAbs < 10 ^ 4 by omega) rest
    rw [← htext, hcs, List.cons_append] at hread
    rw [hcs, List.cons_append]
    generalize hstarts : c :: (cs ++ rest) = text at hread
    split
    · exact absurd ((List.cons.inj hstarts).1 ▸ hdigit.2 hplain) (by decide)
    · exact absurd ((List.cons.inj hstarts).1 ▸ hdigit.2 hplain) (by decide)
    · rw [bind_ok hread]
      simp only [pure_bind, hvalue]
      exact bind_ok (require_ok hbounds rest) _
  · unfold yearText
    split
    · next hneg =>
      have htext : ("-" ++ padded 4 y.natAbs).toList = '-' :: (padded 4 y.natAbs).toList :=
        String.toList_append
      have hvalue : -((y.natAbs : Nat) : Int) = y := by omega
      rw [htext, List.cons_append]
      refine (bind_ok (set_ok _ _) _).trans ?_
      rw [bind_ok hsigned]
      simp only [pure_bind, hvalue]
      exact bind_ok (require_ok hbounds rest) _
    · next hnonneg =>
      have htext : ("+" ++ padded 4 y.natAbs).toList = '+' :: (padded 4 y.natAbs).toList :=
        String.toList_append
      have hvalue : ((y.natAbs : Nat) : Int) = y := by omega
      rw [if_neg fun hle => hplain ⟨Int.not_lt.1 hnonneg, hle⟩, htext, List.cons_append]
      refine (bind_ok (set_ok _ _) _).trans ?_
      rw [bind_ok hsigned]
      simp only [pure_bind, hvalue]
      exact bind_ok (require_ok hbounds rest) _

/-- A part within its bounds is read back. -/
theorem part_padded {low high n : Nat} (hn : n < 100) (hlow : low ≤ n) (hhigh : n ≤ high)
    (rest : List Char) : part low high ((padded 2 n).toList ++ rest) = .ok (n, rest) := by
  have hstart : blanks ((padded 2 n).toList ++ rest) = .ok ((), (padded 2 n).toList ++ rest) := by
    have hlength := le_length_padded 2 n
    obtain ⟨c, cs, hcs⟩ := List.exists_cons_of_length_pos (Nat.lt_of_lt_of_le (by decide) hlength)
    have hdigit := isDigit_of_mem_padded 2 n c (hcs ▸ List.mem_cons_self)
    rw [hcs]
    exact blanks_ok (Text.isBlank_of_isDigit hdigit) _
  unfold part
  rw [bind_ok hstart, bind_ok (number_padded (by decide) hn rest),
    bind_ok (require_ok (by simp [hlow, hhigh]) rest)]
  rfl

theorem zone_ok : zone ['Z'] = .ok (0, []) := rfl

/-! ## Whole texts

The steps follow the text from its year to its zone, and nothing is left behind it. -/

/-- **Every instant is read back** by the grammar of documents. -/
theorem lenientTimestamp_zoned (t : Instant) :
    lenientTimestamp (t.zoned "Z").toList = .ok (t, []) := by
  have hexists : t.date.exists? = true := (Date.ofDay_spec _).1
  obtain ⟨⟨hmonth, hmonth'⟩, hday, hday'⟩ := Date.bounds hexists
  obtain ⟨hyear, hyear'⟩ := t.year_bounds
  have hsecond := t.secondOfDay_lt
  have hleap := t.writtenSecond_le
  have hnano : t.nano % nanosPerSecond < nanosPerSecond := Nat.mod_lt _ (by decide)
  have hzone : "Z".toList = ['Z'] := rfl
  have hmark : ∀ c ∈ ("Z".toList).head?, c.isDigit = false ∧ c ≠ '.' := by
    rintro _ ⟨⟩
    decide
  rw [Instant.toList_zoned]
  unfold lenientTimestamp
  -- Each rewrite is one step of the reader: the date, the time of day, the fraction, the zone.
  rw [bind_ok (year_yearText (by omega) (by omega) (by rintro _ ⟨⟩; decide)),
    bind_ok (mark_ok (by decide) _),
    bind_ok (part_padded (by omega) hmonth hmonth' _), bind_ok (mark_ok (by decide) _),
    bind_ok (part_padded (by omega) hday hday' _), bind_ok (char_ok rfl _),
    bind_ok (part_padded (by omega) (Nat.zero_le _) (by omega) _),
    bind_ok (mark_ok (by decide) _),
    bind_ok (part_padded (by omega) (Nat.zero_le _) (by omega) _),
    bind_ok (mark_ok (by decide) _),
    bind_ok (part_padded (by omega) (Nat.zero_le _) hleap _),
    bind_ok (optionalFraction_fractionText hnano hmark), hzone, bind_ok (blanks_ok (by decide) _),
    bind_ok zone_ok, bind_ok blanks_nil, bind_ok (get_ok _),
    bind_ok (require_ok List.isEmpty_nil _), bind_ok (require_ok (by simp [hexists]; omega) _)]
  exact instant_ok t []

end Scan

/-- **The text of an instant in a document names that instant**: any year, any fraction, and a leap
second too. -/
theorem Instant.ofDocument?_document (t : Instant) : ofDocument? t.document = .ok t := by
  have htext : t.document = t.zoned "Z" := rfl
  rw [htext, ofDocument?, Scan.run?, Scan.lenientTimestamp_zoned]
  rfl

end NetAudit.Calendar
