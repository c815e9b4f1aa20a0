import Mathlib.Data.List.Forall2
import NetAudit.Json.Token
import NetAudit.Json.Value
import NetAudit.Proofs.Digits

/-!
# Tokens that are read back

A string is written with escapes for the characters that cannot stand in it, and a number in decimal
digits. Read as tokens they are the string and the numeral again, whatever follows the string, and
unless the number goes on in what follows it. In front of each stands what was written before, so
the lemmas say what is read of the token and that the rest of the text is left as it is.
-/

namespace NetAudit.Json

/-! ## Strings

Each character has one unit in the text, an escape or itself, and reading the units gives the
characters. -/

/-- The unit is read for the character: as such, or as the number of a control character. -/
def StringUnit.Names (u : StringUnit) (c : Char) : Prop :=
  u = .char c ∨ u = .code c.toNat ∧ c.toNat < 0x20

theorem hexDigits?_escape : ∀ n < 0x20,
    Number.hexDigits? ['0', '0', (n / 16).digitChar, (n % 16).digitChar] = some n := by
  decide

/-- **A character is read back**, escaped or not. -/
theorem scanString_escapedChar (c : Char) : ∃ u : StringUnit, u.Names c ∧
    ∀ cs, scanString (escapedChar c ++ cs) = (scanString cs).cons u := by
  unfold escapedChar
  split
  case h_8 hquote hbackslash hnewline hreturn htab hbackspace hfeed =>
    split
    · next hcontrol =>
      refine ⟨.code c.toNat, .inr ⟨rfl, hcontrol⟩, fun cs => ?_⟩
      simp only [List.cons_append, List.nil_append]
      rw [scanString]
      simp only [hexDigits?_escape c.toNat hcontrol]
    · next hshown =>
      refine ⟨.char c, .inl rfl, fun cs => ?_⟩
      rw [List.singleton_append, scanString]
      · exact if_neg hshown
      all_goals simp_all
  all_goals exact ⟨.char _, .inl rfl, fun cs => rfl⟩

variable {units : List StringUnit} {cs : List Char}

theorem joinUnits_of_names (h : List.Forall₂ StringUnit.Names units cs) :
    joinUnits units = .ok cs := by
  induction h with
  | nil => rfl
  | @cons u c units cs hfirst _ ih =>
      rcases hfirst with rfl | ⟨rfl, hcontrol⟩
      · rw [joinUnits, ih]
        rfl
      · have hlow : isLowSurrogate c.toNat = false := by
          simp [isLowSurrogate]
          omega
        have hhigh : isHighSurrogate c.toNat = false := by
          simp [isHighSurrogate]
          omega
        unfold joinUnits
        rw [hlow, hhigh, ih]
        simp [Except.map]

theorem endsInHalf_of_names (h : List.Forall₂ StringUnit.Names units cs) :
    endsInHalf units = false := by
  -- Only control characters are written by their codes, and half a pair is far above them.
  have hcode : ∀ n, .code n ∈ units → n < 0x20 := by
    intro n hn
    induction h with
    | nil => exact absurd hn List.not_mem_nil
    | cons hfirst _ ih =>
        rcases List.mem_cons.1 hn with heq | hn
        · rcases hfirst with rfl | ⟨rfl, hcontrol⟩
          · cases heq
          · cases heq
            exact hcontrol
        · exact ih hn
  unfold endsInHalf
  split
  · next n hlast =>
    have hlt := hcode n (List.mem_of_getLast? hlast)
    simp [isHighSurrogate]
    omega
  · rfl

/-- **A string is read back**, and what follows it is left. -/
theorem stringToken_escaped (s : String) (rest : List Char) :
    stringToken (s.toList.flatMap escapedChar ++ '"' :: rest) = (.string (.ok s), rest) := by
  have hscan : ∀ cs : List Char, ∃ units, List.Forall₂ StringUnit.Names units cs ∧
      scanString (cs.flatMap escapedChar ++ '"' :: rest) = ⟨units, .closed, rest⟩ := by
    intro cs
    induction cs with
    | nil => exact ⟨[], .nil, rfl⟩
    | cons c cs ih =>
        obtain ⟨u, hu, hfirst⟩ := scanString_escapedChar c
        obtain ⟨units, hunits, hrest⟩ := ih
        refine ⟨u :: units, .cons hu hunits, ?_⟩
        rw [List.flatMap_cons, List.append_assoc, hfirst, hrest]
        rfl
  obtain ⟨units, hunits, hread⟩ := hscan s.toList
  have hliteral : literalOfUnits units = .ok s := by
    unfold literalOfUnits
    rw [joinUnits_of_names hunits]
    simp only [endsInHalf_of_names hunits, String.ofList_toList]
    rfl
  unfold stringToken
  simp only [hread, hliteral]
  rfl

/-! ## Numbers

A numeral ends where its digits do, if nothing follows that could belong to a number. -/

/-- A number may not go on with this character. -/
def endsNumber (c : Char) : Prop := c.isDigit = false ∧ c ≠ '.' ∧ c ≠ 'e' ∧ c ≠ 'E'

instance (c : Char) : Decidable (endsNumber c) :=
  inferInstanceAs (Decidable (c.isDigit = false ∧ c ≠ '.' ∧ c ≠ 'e' ∧ c ≠ 'E'))

/-- Without a point and an exponent a number ends with its digits. -/
theorem fractionToken_end (negative : Bool) (whole : List Char) {rest : List Char}
    (hrest : ∀ c ∈ rest.head?, endsNumber c) :
    fractionToken negative whole rest =
      (.scalar (.number ⟨negative, whole, none, none⟩), rest) := by
  unfold fractionToken
  split
  · exact absurd rfl (hrest '.' rfl).2.1
  · unfold exponentToken
    cases rest with
    | nil => rfl
    | cons c rest =>
        obtain ⟨-, -, he, hE⟩ := hrest c rfl
        exact if_neg fun h => h.elim he hE

/-- **A natural number is read back.** -/
theorem numberToken_toDigits (negative : Bool) (n : Nat) {rest : List Char}
    (hrest : ∀ c ∈ rest.head?, endsNumber c) :
    numberToken negative (Nat.toDigits 10 n ++ rest) =
      (.scalar (.number ⟨negative, Nat.toDigits 10 n, none, none⟩), rest) := by
  have hstop : ∀ c ∈ rest.head?, c.isDigit = false := fun c hc => (hrest c hc).1
  have htake := Number.takeWhile_isDigit (Number.isDigit_of_mem_toDigits (n := n)) hstop
  have hdrop := Number.dropWhile_isDigit (Number.isDigit_of_mem_toDigits (n := n)) hstop
  obtain ⟨c, cs, hcs⟩ := List.exists_cons_of_length_pos (Nat.length_toDigits_pos (b := 10) (n := n))
  -- The grammar has a case of its own for a zero in front, which stands alone.
  by_cases hzero : c = '0'
  · subst hzero
    obtain rfl := Number.tail_eq_nil_of_toDigits hcs
    have hnext : (rest.head?.map Char.isDigit).getD false = false := by
      cases rest with
      | nil => rfl
      | cons c rest => exact (hrest c rfl).1
    rw [hcs, List.singleton_append, numberToken, hnext]
    exact fractionToken_end negative ['0'] hrest
  · have hne : (Nat.toDigits 10 n).isEmpty = false := by
      rw [hcs]
      rfl
    unfold numberToken
    split
    · next heq =>
      rw [hcs, List.cons_append] at heq
      exact absurd (List.cons.inj heq).1 hzero
    · simp only [htake, hdrop, hne]
      exact fractionToken_end negative _ hrest

end NetAudit.Json
