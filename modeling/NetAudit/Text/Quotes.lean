import NetAudit.Text.Blank

/-!
# Values that a client may have put in quotes

Some clients wrap a value in double quotes and some do not. `unquote` reads both alike: white
space at the ends goes, and then one pair of quotes around the whole.

Main statement: `unquoteChars_quoted` (a pair of quotes and white space around it change nothing).
-/

namespace NetAudit.Text

/-- The text between a quote at the beginning and another at the end. -/
def betweenQuotes : List Char → Option (List Char)
  | '"' :: rest => if rest.getLast? = some '"' then some rest.dropLast else none
  | _ => none

/-- A value without white space at its ends and without one pair of quotes around it. -/
def unquoteChars (cs : List Char) : List Char :=
  (betweenQuotes (trim cs)).getD (trim cs)

/-- A value without white space at its ends and without one pair of quotes around it. -/
def unquote (s : String) : String := String.ofList (unquoteChars s.toList)

/-! ### Quotes make no difference -/

theorem trimLeft_blank_append {a cs : List Char} (ha : ∀ c ∈ a, isBlank c) :
    trimLeft (a ++ cs) = trimLeft cs := by
  induction a with
  | nil => rfl
  | cons c a ih =>
    rw [trimLeft, List.cons_append, List.dropWhile_cons]
    simp only [ha c List.mem_cons_self, if_true]
    exact ih fun d hd => ha d (List.mem_cons_of_mem _ hd)

theorem trimRight_append_blank {a cs : List Char} (ha : ∀ c ∈ a, isBlank c) :
    trimRight (cs ++ a) = trimRight cs := by
  rw [trimRight, List.reverse_append]
  have hr : ∀ c ∈ a.reverse, isBlank c := by simpa using ha
  have := @trimLeft_blank_append _ cs.reverse hr
  rw [trimLeft] at this
  rw [this, trimLeft, trimRight]

/-- A text that begins and ends with quotes has no white space at its ends. -/
theorem trim_quoted (cs : List Char) : trim ('"' :: cs ++ ['"']) = '"' :: cs ++ ['"'] := by
  have hq : isBlank '"' = false := by decide
  simp [trim, trimLeft, trimRight, hq]

/-- A pair of quotes around a value, with any white space around them, changes nothing. -/
theorem unquoteChars_quoted {a b : List Char} (ha : ∀ c ∈ a, isBlank c) (hb : ∀ c ∈ b, isBlank c)
    (cs : List Char) : unquoteChars (a ++ ('"' :: cs ++ ['"']) ++ b) = cs := by
  have h : trim (a ++ ('"' :: cs ++ ['"']) ++ b) = '"' :: cs ++ ['"'] := by
    rw [trim, List.append_assoc, trimLeft_blank_append ha]
    have hl : trimLeft ('"' :: cs ++ ['"'] ++ b) = '"' :: cs ++ ['"'] ++ b := by
      simp [trimLeft, show isBlank '"' = false by decide]
    rw [hl, trimRight_append_blank hb, ← trim_quoted, trim, trimRight_idem]
  rw [unquoteChars, h]
  simp [betweenQuotes]

end NetAudit.Text
