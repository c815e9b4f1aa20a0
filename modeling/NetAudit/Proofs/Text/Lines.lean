import NetAudit.Text.Line

/-!
# Texts that are written line by line

A text that is written line by line, with a line feed behind each, is read as the lines of each
part by itself, whatever the parts hold. This is so for both ways of reading lines: `feeds` takes
all that stands between two line feeds, and `lines` leaves out a carriage return before a line feed.
-/

namespace NetAudit.Text

/-- The pieces of a text between its line feeds. -/
def feeds (s : String) : List String := (s.toList.splitOn '\n').map String.ofList

/-- A line without the carriage return at its end, if there is one. -/
def dropReturn (s : String) : String :=
  if s.toList.getLast? = some '\r' then String.ofList s.toList.dropLast else s

/-! ## Characters

The reader of lines goes through the characters and takes a carriage return along with a line
feed. -/

section Characters

variable {c : Char} {cs ds l : List Char} {ls : List (List Char)}

/-- A character that ends no line belongs to the line that goes on behind it. -/
theorem lineChars_cons (hfeed : c ≠ '\n') (hreturn : c = '\r' → cs.head? ≠ some '\n')
    (h : lineChars cs = l :: ls) : lineChars (c :: cs) = (c :: l) :: ls := by
  rw [lineChars, h]
  · exact hfeed
  · rintro cs' rfl rfl
    exact hreturn rfl rfl

theorem lineChars_ne_nil (h : cs ≠ []) : lineChars cs ≠ [] := by
  unfold lineChars
  split
  · exact absurd rfl h
  · exact List.cons_ne_nil _ _
  · exact List.cons_ne_nil _ _
  · split <;> exact List.cons_ne_nil _ _

/-- **What stands behind a line feed** does not change the lines before it. -/
theorem lineChars_append (cs ds : List Char) :
    lineChars (cs ++ '\n' :: ds) = lineChars (cs ++ ['\n']) ++ lineChars ds := by
  induction cs with
  | nil => rfl
  | cons c cs ih =>
      by_cases hfeed : c = '\n'
      · subst hfeed
        exact congrArg ([] :: ·) ih
      by_cases hreturn : c = '\r' ∧ (cs ++ ['\n']).head? = some '\n'
      · -- The carriage return belongs to the end of the line.
        obtain ⟨rfl, hhead⟩ := hreturn
        cases cs with
        | nil => rfl
        | cons d cs =>
            obtain rfl : d = '\n' := Option.some.inj hhead
            exact ih
      · have hne : cs ++ ['\n'] ≠ [] := List.append_ne_nil_of_right_ne_nil _ (List.cons_ne_nil _ _)
        obtain ⟨l, ls, hline⟩ := List.exists_cons_of_ne_nil (lineChars_ne_nil hne)
        have hhead : (cs ++ '\n' :: ds).head? = (cs ++ ['\n']).head? := by cases cs <;> rfl
        rw [hline] at ih
        rw [List.cons_append, List.cons_append,
          lineChars_cons hfeed (fun hc heq => hreturn ⟨hc, heq⟩) hline,
          lineChars_cons hfeed (fun hc heq => hreturn ⟨hc, hhead ▸ heq⟩) ih]
        rfl

/-- A text without line feeds is one line, but for a carriage return at its end. -/
theorem lineChars_feed (h : '\n' ∉ cs) :
    lineChars (cs ++ ['\n']) = [if cs.getLast? = some '\r' then cs.dropLast else cs] := by
  induction cs with
  | nil => rfl
  | cons c cs ih =>
      obtain ⟨hc, hcs⟩ := not_or.1 (mt List.mem_cons.2 h)
      cases cs with
      | nil =>
          -- A carriage return goes with the end of its line, but only as the last character of it.
          by_cases hreturn : c = '\r'
          · subst hreturn
            rfl
          · have hlast : [c].getLast? ≠ some '\r' := by simpa using hreturn
            rw [if_neg hlast]
            exact lineChars_cons (Ne.symm hc) (fun heq => absurd heq hreturn) rfl
      | cons d ds =>
          have hhead : (d :: ds ++ ['\n']).head? ≠ some '\n' :=
            fun heq => hcs (Option.some.inj heq ▸ List.mem_cons_self)
          rw [List.cons_append, lineChars_cons (Ne.symm hc) (fun _ => hhead) (ih hcs),
            List.getLast?_cons_cons, List.dropLast_cons_cons]
          split <;> rfl

end Characters

/-! ## Lines

What is said of characters is said of texts, for each way of reading them. -/

variable {s : String}

theorem feeds_of_not_mem (h : '\n' ∉ s.toList) : feeds s = [s] := by
  rw [feeds, List.splitOn_eq_singleton h, List.map_singleton, String.ofList_toList]

theorem lines_feed (h : '\n' ∉ s.toList) : lines (s ++ "\n") = [dropReturn s] := by
  have hchars : (s ++ "\n").toList = s.toList ++ ['\n'] := String.toList_append
  rw [lines, hchars, lineChars_feed h, List.map_singleton, dropReturn]
  split
  · rfl
  · rw [String.ofList_toList]

/-- A text behind the line feed that ends another one. -/
theorem toList_feed_append (s t : String) :
    (s ++ "\n" ++ t).toList = s.toList ++ '\n' :: t.toList := by
  rw [String.toList_append, String.toList_append, List.append_assoc]
  rfl

/-- The text of some lines is read as the pieces of each, and nothing behind the last line feed. -/
theorem feeds_join (ls : List String) :
    feeds (String.join (ls.map (· ++ "\n"))) = ls.flatMap feeds ++ [""] := by
  induction ls with
  | nil => rfl
  | cons s ls ih =>
      rw [List.map_cons, String.join_cons, List.flatMap_cons, List.append_assoc, ← ih]
      simp only [feeds]
      rw [toList_feed_append, List.splitOn_append_cons_self, List.map_append]

/-- The text of some lines is read as the lines of each. -/
theorem lines_join (ls : List String) :
    lines (String.join (ls.map (· ++ "\n"))) = ls.flatMap fun s => lines (s ++ "\n") := by
  induction ls with
  | nil => rfl
  | cons s ls ih =>
      have hfirst : (s ++ "\n").toList = s.toList ++ ['\n'] := String.toList_append
      rw [List.map_cons, String.join_cons, List.flatMap_cons, ← ih]
      simp only [lines]
      rw [toList_feed_append, lineChars_append, List.map_append, hfirst]

end NetAudit.Text
