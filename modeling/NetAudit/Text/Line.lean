/-!
# Lines

A text as a list of lines: a line ends with a line feed, and a carriage return right before that
line feed belongs to the end of the line. There is no empty last line, and a carriage return that
no line feed follows is a character of its line.
-/

namespace NetAudit.Text

/-- The lines of a text. -/
def lineChars : List Char → List (List Char)
  | [] => []
  | '\n' :: cs => [] :: lineChars cs
  | '\r' :: '\n' :: cs => [] :: lineChars cs
  | c :: cs =>
    match lineChars cs with
    | [] => [[c]]
    | l :: ls => (c :: l) :: ls

/-- The lines of a text. -/
def lines (s : String) : List String := (lineChars s.toList).map String.ofList

/-- The first `n` lines of a text, with a line feed between one and the next. -/
def firstLines (n : Nat) (s : String) : String := "\n".intercalate ((lines s).take n)

/-- No line holds a line feed. -/
theorem not_mem_of_mem_lineChars {l cs : List Char} (h : l ∈ lineChars cs) : '\n' ∉ l := by
  fun_induction lineChars cs generalizing l with
  | case1 => simp at h
  | case2 cs ih =>
    rcases List.mem_cons.1 h with rfl | h
    · simp
    · exact ih h
  | case3 cs ih =>
    rcases List.mem_cons.1 h with rfl | h
    · simp
    · exact ih h
  | case4 c cs h1 h2 hl ih =>
    rw [List.mem_singleton.1 h, List.mem_singleton]
    exact fun hc => h1 hc.symm
  | case5 c cs h1 h2 l' ls hl ih =>
    rcases List.mem_cons.1 h with rfl | h
    · have := ih (hl ▸ List.mem_cons_self)
      simp only [List.mem_cons, not_or]
      exact ⟨fun hc => h1 hc.symm, this⟩
    · exact ih (hl ▸ List.mem_cons_of_mem _ h)

end NetAudit.Text
