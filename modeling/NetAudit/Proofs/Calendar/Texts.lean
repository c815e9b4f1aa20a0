import Mathlib.Data.String.Basic
import NetAudit.Calendar.Format
import NetAudit.Calendar.Rfc3339
import NetAudit.Proofs.Calendar.Dates
import NetAudit.Proofs.Calendar.Days
import NetAudit.Proofs.Digits

/-!
# Instants that are read back

An instant is written with any year, and a request reads years of four digits only. Between the
years 0 and 9999 both forms, that of reports and that of documents, are read back to the nanosecond,
leap seconds included (`Instant.ofTimestamp?_of_mem_forms`); the sign of any other year is refused.

A reader of a text goes on with what the step before it has left, so each step has an equation for
its part of the text with anything behind it, and `Scan.bind_ok` goes from step to step.
-/

namespace NetAudit.Calendar

/-! ## Steps

A step takes its part from the front of the text. With its equation the whole reader is computed
step by step, by rewriting with `Scan.bind_ok`. -/

namespace Scan

variable {α β : Type}

theorem bind_ok {x : Scan α} {cs rest : List Char} {a : α} (h : x cs = .ok (a, rest))
    (f : α → Scan β) : (x >>= f) cs = f a rest := by
  show Except.bind (x cs) _ = _
  rw [h]
  rfl

theorem bind_error {x : Scan α} {cs : List Char} {fault : TimestampFault} (h : x cs = .error fault)
    (f : α → Scan β) : (x >>= f) cs = .error fault := by
  show Except.bind (x cs) _ = _
  rw [h]
  rfl

theorem get_ok (cs : List Char) : (get : Scan (List Char)) cs = .ok (cs, cs) := rfl

theorem require_ok {fault : TimestampFault} {condition : Bool} (h : condition = true)
    (cs : List Char) : require fault condition cs = .ok ((), cs) := by
  rw [h]
  rfl

variable {accept : Char → Bool} {c : Char}

theorem char_ok (h : accept c = true) (cs : List Char) : char accept (c :: cs) = .ok (c, cs) := by
  show (ite _ _ _ : Scan Char) _ = _
  rw [if_pos h]
  rfl

theorem char_unexpected (h : accept c = false) (cs : List Char) :
    char accept (c :: cs) = .error .unexpected := by
  show (ite _ _ _ : Scan Char) _ = _
  rw [h]
  rfl

theorem digit_ok (h : c.isDigit = true) (cs : List Char) :
    digit (c :: cs) = .ok (c.toNat - '0'.toNat, cs) := bind_ok (char_ok h cs) _

theorem digits_ok {ds : List Char} (h : ∀ c ∈ ds, c.isDigit = true) (rest : List Char) :
    digits ds.length (ds ++ rest) = .ok (Nat.ofDigitChars 10 ds 0, rest) := by
  induction ds with
  | nil => rfl
  | cons c ds ih =>
      obtain ⟨hc, hds⟩ := List.forall_mem_cons.1 h
      have hvalue : Nat.ofDigitChars 10 (c :: ds) 0 =
          (c.toNat - '0'.toNat) * Nat.pow 10 ds.length + Nat.ofDigitChars 10 ds 0 := by
        rw [Nat.ofDigitChars_cons, Nat.ofDigitChars_eq_ofDigitChars_zero, Nat.mul_zero,
          Nat.zero_add, Nat.mul_comm]
        rfl
      rw [List.length_cons, digits, List.cons_append, bind_ok (digit_ok hc _), bind_ok (ih hds),
        hvalue]
      rfl

theorem digits_unexpected (h : c.isDigit = false) (n : Nat) (cs : List Char) :
    digits (n + 1) (c :: cs) = .error .unexpected := by
  have hdigit : digit (c :: cs) = .error .unexpected := bind_error (char_unexpected h cs) _
  rw [digits, bind_error hdigit]

end Scan

/-! ## Numbers

A number that is written with a width has zeros in front, and is read back by a step that takes as
many digits. -/

section Padded

variable {width n : Nat}

theorem isDigit_of_mem_padded (width n : Nat) :
    ∀ c ∈ (padded width n).toList, c.isDigit = true := by
  intro c h
  rw [padded, String.toList_ofList, List.mem_append] at h
  rcases h with hzero | hdigit
  · rw [(List.mem_replicate.1 hzero).2]
    decide
  · exact Number.isDigit_of_mem_toDigits c hdigit

theorem ofDigitChars_padded (width n : Nat) :
    Nat.ofDigitChars 10 (padded width n).toList 0 = n := by
  rw [padded, String.toList_ofList, Nat.ofDigitChars_append, Nat.ofDigitChars_replicate_zero,
    Nat.mul_zero, Nat.ofDigitChars_toDigits (by decide) (by decide)]

theorem le_length_padded (width n : Nat) : width ≤ (padded width n).toList.length := by
  rw [padded, String.toList_ofList, List.length_append, List.length_replicate]
  omega

theorem length_padded (hwidth : 0 < width) (h : n < 10 ^ width) :
    (padded width n).toList.length = width := by
  have hle := (Nat.length_toDigits_le_iff (by decide) hwidth).2 h
  rw [padded, String.toList_ofList, List.length_append, List.length_replicate,
    Nat.sub_add_cancel hle]

/-- A number of at most so many digits is read back. -/
theorem Scan.digits_padded (hwidth : 0 < width) (h : n < 10 ^ width) (rest : List Char) :
    digits width ((padded width n).toList ++ rest) = .ok (n, rest) := by
  have hread := digits_ok (isDigit_of_mem_padded width n) rest
  rwa [length_padded hwidth h, ofDigitChars_padded] at hread

end Padded

/-! ## Fractions

A fraction is written with three, six or nine digits, or not at all. The reader fills up with zeros,
so it finds the same nanoseconds. -/

namespace Scan

variable {rest : List Char}

/-- The digits of a fraction end where something else begins. -/
theorem fraction_ok {ds : List Char} (hne : ds ≠ []) (hle : ds.length ≤ 9)
    (hds : ∀ c ∈ ds, c.isDigit = true) (hrest : ∀ c ∈ rest.head?, c.isDigit = false) :
    fraction (ds ++ rest) =
      .ok (Nat.ofDigitChars 10 ds 0 * Nat.pow 10 (9 - ds.length), rest) := by
  unfold fraction
  rw [bind_ok (get_ok _), Number.takeWhile_isDigit hds hrest, Number.dropWhile_isDigit hds hrest,
    List.take_of_length_le hle]
  cases ds with
  | nil => exact absurd rfl hne
  | cons c ds => rfl

theorem optionalFraction_point (cs : List Char) : optionalFraction ('.' :: cs) = fraction cs := rfl

theorem optionalFraction_of_ne (h : ∀ c ∈ rest.head?, c ≠ '.') :
    optionalFraction rest = .ok (0, rest) := by
  unfold optionalFraction
  rw [bind_ok (get_ok _)]
  split
  · exact absurd rfl (h '.' rfl)
  · rfl

/-- A fraction that is written with a number of digits is read back, if these are all that it
has. -/
theorem optionalFraction_padded (width unit : Nat) {nano : Nat} (hwidth : 0 < width)
    (hle : width ≤ 9) (hunit : Nat.pow 10 (9 - width) = unit) (hlt : nano / unit < 10 ^ width)
    (hmod : nano % unit = 0) (hrest : ∀ c ∈ rest.head?, c.isDigit = false) :
    optionalFraction (("." ++ padded width (nano / unit)).toList ++ rest) = .ok (nano, rest) := by
  have hlength := length_padded hwidth hlt
  have hread := fraction_ok (List.ne_nil_of_length_pos (by omega)) (by omega)
    (isDigit_of_mem_padded width (nano / unit)) hrest
  have hwhole := Nat.div_mul_cancel (Nat.dvd_of_mod_eq_zero hmod)
  rw [hlength, ofDigitChars_padded, hunit, hwhole] at hread
  have htext : ".".toList = ['.'] := rfl
  rw [String.toList_append, htext, List.append_assoc, List.singleton_append,
    optionalFraction_point, hread]

/-- **A fraction is read back**, whichever number of digits it is written with. -/
theorem optionalFraction_fractionText {nano : Nat} (h : nano < nanosPerSecond)
    (hrest : ∀ c ∈ rest.head?, c.isDigit = false ∧ c ≠ '.') :
    optionalFraction ((fractionText nano).toList ++ rest) = .ok (nano, rest) := by
  have hstop : ∀ c ∈ rest.head?, c.isDigit = false := fun c hc => (hrest c hc).1
  unfold nanosPerSecond at h
  unfold fractionText
  -- No fraction, or one of three, six or nine digits: as few as are exact.
  split
  · next hzero =>
    rw [hzero, String.toList_empty, List.nil_append]
    exact optionalFraction_of_ne fun c hc => (hrest c hc).2
  · split
    · next hmod =>
      exact optionalFraction_padded 3 1000000 (by decide) (by decide) (by decide) (by omega)
        hmod hstop
    · split
      · next hmod =>
        exact optionalFraction_padded 6 1000 (by decide) (by decide) (by decide) (by omega)
          hmod hstop
      · have hone := optionalFraction_padded 9 1 (by decide) (by decide) (by decide)
          (show nano / 1 < 10 ^ 9 by omega) (Nat.mod_one nano) hstop
        rwa [Nat.div_one] at hone

end Scan

/-! ## Dates and times of day

The parts of an instant are within the bounds that a reader asks for, and make the instant again. -/

/-- The numbers of a date that exists. -/
theorem Date.bounds {d : Date} (h : d.exists? = true) :
    (1 ≤ d.month ∧ d.month ≤ 12) ∧ 1 ≤ d.day ∧ d.day ≤ 31 := by
  unfold exists? at h
  simp only [Bool.and_eq_true, decide_eq_true_eq] at h
  obtain ⟨⟨hmonth, hfirst⟩, hday⟩ := h
  have hlength : ∀ length ∈ monthLengths d.year, length ≤ 31 := by
    unfold monthLengths
    split <;> decide
  have hmax : (monthLengths d.year).getD (d.month - 1) 0 ≤ 31 := by
    rw [List.getD_eq_getElem?_getD]
    cases hget : (monthLengths d.year)[d.month - 1]? with
    | none => exact Nat.zero_le 31
    | some length => exact hlength length (List.mem_of_getElem? hget)
  exact ⟨hmonth, hfirst, Nat.le_trans hday hmax⟩

/-- **An instant is found again** by its date and its time of day, in a leap second too. -/
theorem Scan.instant_ok (t : Instant) (cs : List Char) :
    instant t.date (t.secondOfDay / 3600) (t.secondOfDay / 60 % 60)
        (if t.isLeap then 60 else t.secondOfDay % 60) (t.nano % nanosPerSecond) 0 cs =
      .ok (t, cs) := by
  have hday : t.date.dayNumber = t.second / 86400 := (Date.ofDay_spec _).2
  have hlt := t.nano_lt
  have hleap : t.isLeap = true ↔ nanosPerSecond ≤ t.nano := by simp [Instant.isLeap]
  have hsixty : ((if t.isLeap then 60 else t.secondOfDay % 60) == 60) = t.isLeap := by
    cases t.isLeap with
    | true => rfl
    | false => simpa using Nat.ne_of_lt (Nat.mod_lt t.secondOfDay (by decide))
  have hparts : Instant.ofParts?
      (t.date.dayNumber * 86400 + ((t.secondOfDay / 3600 : Nat) * 3600 +
        (t.secondOfDay / 60 % 60 : Nat) * 60 +
          (if t.isLeap then 59 else if t.isLeap then 60 else t.secondOfDay % 60 : Nat)) - 0)
      (if t.isLeap then t.nano % nanosPerSecond + nanosPerSecond else t.nano % nanosPerSecond) =
        some t := by
    rw [Instant.ofParts?_eq_some_iff, hday]
    unfold Instant.secondOfDay
    by_cases hle : nanosPerSecond ≤ t.nano
    · -- A leap second ends a minute, so 59 is what its second leaves after all minutes.
      have hend := t.leap_ends_minute hle
      have hnano : t.nano % nanosPerSecond = t.nano - nanosPerSecond := by
        rw [Nat.mod_eq_sub_mod hle, Nat.mod_eq_of_lt (by omega)]
      rw [if_pos (hleap.2 hle), if_pos (hleap.2 hle), hnano]
      omega
    · have hnano : t.nano % nanosPerSecond = t.nano := Nat.mod_eq_of_lt (Nat.lt_of_not_le hle)
      rw [if_neg (mt hleap.1 hle), if_neg (mt hleap.1 hle), if_neg (mt hleap.1 hle), hnano]
      omega
  unfold instant
  simp only [hsixty, hparts]
  rfl

/-- A year begins with a digit or with a sign, the one if it has four digits at most and the other
if it has not. -/
theorem yearText_cons (year : Int) : ∃ c cs, (yearText year).toList = c :: cs ∧
    Text.isBlank c = false ∧ (c.isDigit = true ↔ 0 ≤ year ∧ year ≤ 9999) := by
  have hminus : "-".toList = ['-'] := rfl
  have hplus : "+".toList = ['+'] := rfl
  have hsign : '-'.isDigit = false ∧ '+'.isDigit = false := by decide
  unfold yearText
  -- A year of four digits has no sign, and any other one has.
  split
  · next hneg =>
    refine ⟨'-', _, by rw [String.toList_append, hminus, List.singleton_append], by decide, ?_⟩
    rw [hsign.1]
    exact ⟨Bool.noConfusion, fun h => absurd h.1 (Int.not_le.2 hneg)⟩
  · next hnonneg =>
    split
    · next hle =>
      have hlength := le_length_padded 4 year.natAbs
      obtain ⟨c, cs, hcs⟩ := List.exists_cons_of_length_pos (Nat.lt_of_lt_of_le (by decide) hlength)
      have hdigit := isDigit_of_mem_padded 4 year.natAbs c (hcs ▸ List.mem_cons_self)
      exact ⟨c, cs, hcs, Text.isBlank_of_isDigit hdigit, by simp [hdigit, hle]; omega⟩
    · next hgt =>
      refine ⟨'+', _, by rw [String.toList_append, hplus, List.singleton_append], by decide, ?_⟩
      rw [hsign.2]
      exact ⟨Bool.noConfusion, fun h => absurd h.2 hgt⟩

theorem le_length_yearText (year : Int) : 4 ≤ (yearText year).toList.length := by
  have hlength := le_length_padded 4 year.natAbs
  unfold yearText
  split
  · rw [String.toList_append, List.length_append]
    omega
  · split
    · exact hlength
    · rw [String.toList_append, List.length_append]
      omega

/-! ## Whole texts

With a plain year the reader goes through the whole text. With any other it stops at the sign. -/

/-- A character has a byte at least. -/
theorem length_le_utf8ByteSize (s : String) : s.toList.length ≤ s.utf8ByteSize := by
  rw [← String.ofList_toList (s := s), String.utf8ByteSize_ofList, String.toList_ofList]
  induction s.toList with
  | nil => exact Nat.zero_le _
  | cons c cs ih =>
      have hpos := c.utf8Size_pos
      rw [List.length_cons, String.utf8Len_cons]
      omega

namespace Instant

/-- A date and a time of day with a text for the offset. -/
def zoned (t : Instant) (zone : String) : String := t.date.text ++ "T" ++ t.timeText ++ zone

/-- The year has four digits at most, and no sign. -/
def HasPlainYear (t : Instant) : Prop := 0 ≤ t.date.year ∧ t.date.year ≤ 9999

instance (t : Instant) : Decidable t.HasPlainYear :=
  inferInstanceAs (Decidable (0 ≤ t.date.year ∧ t.date.year ≤ 9999))

theorem toList_zoned (t : Instant) (zone : String) :
    (t.zoned zone).toList =
      (yearText t.date.year).toList ++ '-' :: ((padded 2 t.date.month).toList ++
        '-' :: ((padded 2 t.date.day).toList ++ 'T' :: ((padded 2 (t.secondOfDay / 3600)).toList ++
          ':' :: ((padded 2 (t.secondOfDay / 60 % 60)).toList ++
            ':' :: ((padded 2 (if t.isLeap then 60 else t.secondOfDay % 60)).toList ++
              ((fractionText (t.nano % nanosPerSecond)).toList ++ zone.toList)))))) := by
  have hdash : "-".toList = ['-'] := rfl
  have hmark : "T".toList = ['T'] := rfl
  have hcolon : ":".toList = [':'] := rfl
  simp only [zoned, timeText, Date.text, String.toList_append, hdash, hmark, hcolon,
    List.append_assoc, List.cons_append, List.nil_append]

theorem secondOfDay_lt (t : Instant) : t.secondOfDay < 86400 := by
  unfold secondOfDay
  omega

/-- The second of the minute as it is written: a leap second is the sixtieth. -/
theorem writtenSecond_le (t : Instant) :
    (if t.isLeap then 60 else t.secondOfDay % 60) ≤ 60 := by
  split <;> omega

end Instant

namespace Scan

theorem offset_ok {zone : String} (h : zone = "Z" ∨ zone = "+00:00") :
    offset (discard (char (· == ':'))) zone.toList = .ok (0, []) := by
  rcases h with rfl | rfl <;> rfl

theorem timestamp_zoned (t : Instant) {zone : String} (h : t.HasPlainYear)
    (hzone : zone = "Z" ∨ zone = "+00:00") : timestamp (t.zoned zone).toList = .ok (t, []) := by
  obtain ⟨hyear, hlast⟩ := h
  have hexists : t.date.exists? = true := (Date.ofDay_spec _).1
  obtain ⟨⟨-, hmonth⟩, -, hday⟩ := Date.bounds hexists
  have htext : yearText t.date.year = padded 4 t.date.year.natAbs := by
    rw [yearText, if_neg (Int.not_lt.2 hyear), if_pos hlast]
  have hdate : (⟨(t.date.year.natAbs : Nat), t.date.month, t.date.day⟩ : Date) = t.date := by
    rw [Int.natAbs_of_nonneg hyear]
  have hsecond := t.secondOfDay_lt
  have hleap := t.writtenSecond_le
  have hnano : t.nano % nanosPerSecond < nanosPerSecond := Nat.mod_lt _ (by decide)
  have hstop : ∀ c ∈ zone.toList.head?, c.isDigit = false ∧ c ≠ '.' := by
    rcases hzone with rfl | rfl <;> rintro _ ⟨⟩ <;> decide
  rw [Instant.toList_zoned, htext]
  unfold timestamp
  -- Each rewrite is one step of the reader: the date, the time of day, the fraction, the zone.
  rw [bind_ok (digits_padded (by decide) (by omega) _), bind_ok (char_ok rfl _),
    bind_ok (digits_padded (by decide) (by omega) _), bind_ok (char_ok rfl _),
    bind_ok (digits_padded (by decide) (by omega) _)]
  simp only [hdate]
  rw [bind_ok (require_ok hexists _), bind_ok (char_ok rfl _),
    bind_ok (digits_padded (by decide) (by omega) _), bind_ok (char_ok rfl _),
    bind_ok (digits_padded (by decide) (by omega) _), bind_ok (char_ok rfl _),
    bind_ok (digits_padded (by decide) (by omega) _),
    bind_ok (optionalFraction_fractionText hnano hstop),
    bind_ok (require_ok (by simp; omega) _), bind_ok (offset_ok hzone), bind_ok (get_ok _),
    bind_ok (require_ok List.isEmpty_nil _)]
  exact instant_ok t []

/-- The sign of a year that has no four digits is refused. -/
theorem timestamp_unexpected (t : Instant) (zone : String)
    (h : ¬t.HasPlainYear) : timestamp (t.zoned zone).toList = .error .unexpected := by
  obtain ⟨c, cs, hcs, -, hdigit⟩ := yearText_cons t.date.year
  have hsign : c.isDigit = false := Bool.eq_false_iff.2 (mt hdigit.1 h)
  rw [Instant.toList_zoned, hcs, List.cons_append]
  exact bind_error (digits_unexpected hsign 3 _) _

end Scan

namespace Instant

variable (t : Instant) {zone : String}

theorem le_utf8ByteSize_zoned (zone : String) : 19 ≤ (t.zoned zone).utf8ByteSize := by
  have hyear := le_length_yearText t.date.year
  have hmonth := le_length_padded 2 t.date.month
  have hday := le_length_padded 2 t.date.day
  have hhour := le_length_padded 2 (t.secondOfDay / 3600)
  have hminute := le_length_padded 2 (t.secondOfDay / 60 % 60)
  have hsecond := le_length_padded 2 (if t.isLeap then 60 else t.secondOfDay % 60)
  refine Nat.le_trans ?_ (length_le_utf8ByteSize _)
  simp only [toList_zoned, List.length_append, List.length_cons]
  omega

theorem trim_zoned (h : zone = "Z" ∨ zone = "+00:00") :
    Text.trim (t.zoned zone).toList = (t.zoned zone).toList := by
  apply Text.trim_eq_self
  · obtain ⟨c, cs, hcs, hblank, -⟩ := yearText_cons t.date.year
    rw [toList_zoned, hcs]
    rintro _ ⟨⟩
    exact hblank
  · rw [zoned, String.toList_append]
    rcases h with rfl | rfl
    · rw [show "Z".toList = ['Z'] from rfl, List.getLast?_concat]
      rintro _ ⟨⟩
      decide
    · rw [show "+00:00".toList = ['+', '0', '0', ':', '0'] ++ ['0'] from rfl,
        ← List.append_assoc, List.getLast?_concat]
      rintro _ ⟨⟩
      decide

theorem ofTimestamp?_zoned (h : zone = "Z" ∨ zone = "+00:00") :
    ofTimestamp? (t.zoned zone) = Scan.timestamp.run? (t.zoned zone) := by
  unfold ofTimestamp?
  simp only [trim_zoned t h, String.ofList_toList]
  rw [if_neg (Nat.not_lt.2 (le_utf8ByteSize_zoned t zone))]

/-- The forms in which an instant is handed on: that of reports and that of documents. -/
def forms : List String := [t.withOffset, t.document]

theorem exists_zoned_of_mem_forms {s : String} (h : s ∈ t.forms) :
    ∃ zone, (zone = "Z" ∨ zone = "+00:00") ∧ s = t.zoned zone := by
  rw [forms, List.mem_cons, List.mem_singleton] at h
  rcases h with rfl | rfl
  · exact ⟨"+00:00", .inr rfl, rfl⟩
  · exact ⟨"Z", .inl rfl, rfl⟩

/-- **Either form of an instant names that instant**, if its year is a plain one; else it names
none. -/
theorem ofTimestamp?_of_mem_forms {s : String} (h : s ∈ t.forms) :
    ofTimestamp? s = if t.HasPlainYear then .ok t else .error .unexpected := by
  obtain ⟨zone, hzone, rfl⟩ := t.exists_zoned_of_mem_forms h
  rw [ofTimestamp?_zoned t hzone, Scan.run?]
  split
  · next hyear =>
    rw [Scan.timestamp_zoned t hyear hzone]
    rfl
  · next hyear =>
    rw [Scan.timestamp_unexpected t zone hyear]
    rfl

theorem isBlankText_of_mem_forms {s : String} (h : s ∈ t.forms) : Text.isBlankText s = false := by
  obtain ⟨zone, hzone, rfl⟩ := t.exists_zoned_of_mem_forms h
  obtain ⟨c, cs, hcs, -, -⟩ := yearText_cons t.date.year
  rw [Text.isBlankText, trim_zoned t hzone, toList_zoned, hcs]
  rfl

end Instant

end NetAudit.Calendar
