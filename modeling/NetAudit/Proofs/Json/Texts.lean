import NetAudit.Json.Codec
import NetAudit.Proofs.Json.Strings

/-!
# Texts that are read back

A value has two texts, on one line and over several. Both have the tokens of the value, which
`Json.spell` lists: the first half of this module goes from characters to these tokens, the second
from the tokens to the document of the value. So whichever text is read, the document is found in it
and nothing follows (`read_text`, `read_pretty`).
-/

namespace NetAudit.Json

/-! ## The tokens of a value

`Json.spell` goes through the value as a writer does, and leaves out the blanks and line feeds. -/

mutual

/-- The tokens of a value. -/
def spell : Json → List Token
  | .null => [.scalar .null]
  | .bool b => [.scalar (.bool b)]
  | .number n => [.scalar (.ofJson (.number n))]
  | .string s => [.string (.ok s)]
  | .array items => .openArray :: spellItems items ++ [.closeArray]
  | .object fields => .openObject :: spellFields fields ++ [.closeObject]

/-- The tokens of the items of an array. -/
def spellItems : List Json → List Token
  | [] => []
  | [j] => spell j
  | j :: js => spell j ++ .comma :: spellItems js

/-- The tokens of the fields of an object. -/
def spellFields : List (String × Json) → List Token
  | [] => []
  | [(k, j)] => .string (.ok k) :: .colon :: spell j
  | (k, j) :: fs => .string (.ok k) :: .colon :: spell j ++ .comma :: spellFields fs

end

/-! ## From characters to tokens

The lemmas go through the value as the writer of each text does. A number needs to know that nothing
behind it goes on with it. -/

variable {c : Char} {cs rest : List Char}

theorem tokens_cons (h : isSpace c = false) :
    tokens (c :: cs) = (token c cs).1 :: tokens (token c cs).2 := by
  rw [tokens, h]
  rfl

theorem tokens_space (h : isSpace c = true) : tokens (c :: cs) = tokens cs := by
  rw [tokens, if_pos h]

theorem tokens_newLine (depth : Nat) : tokens (newLine depth ++ cs) = tokens cs := by
  have hblanks : ∀ n, tokens (List.replicate n ' ' ++ cs) = tokens cs := by
    intro n
    induction n with
    | zero => rfl
    | succ n ih => rw [List.replicate_succ, List.cons_append, tokens_space rfl, ih]
  rw [newLine, List.cons_append, tokens_space rfl, hblanks]

theorem tokens_stringChars (s : String) :
    tokens (stringChars s ++ rest) = .string (.ok s) :: tokens rest := by
  have htoken : token '"' (s.toList.flatMap escapedChar ++ '"' :: rest) = (.string (.ok s), rest) :=
    stringToken_escaped s rest
  rw [stringChars, List.cons_append, List.cons_append, List.append_assoc, List.singleton_append,
    tokens_cons rfl, htoken]

/-- A number begins with its first digit. -/
theorem tokens_digit (h : c.isDigit = true) :
    tokens (c :: cs) =
      (numberToken false (c :: cs)).1 :: tokens (numberToken false (c :: cs)).2 := by
  have hspace : isSpace c = false := by
    rw [Bool.eq_false_iff]
    intro hspace
    simp only [isSpace, Bool.or_eq_true, beq_iff_eq] at hspace
    rcases hspace with ((rfl | rfl) | rfl) | rfl
    all_goals exact absurd h (by decide)
  have htoken : token c cs = numberToken false (c :: cs) := by
    unfold token
    split
    case h_12 => exact if_pos h
    all_goals exact absurd h (by decide)
  rw [tokens_cons hspace, htoken]

theorem tokens_number (n : Int) (hrest : ∀ c ∈ rest.head?, endsNumber c) :
    tokens ((toString n).toList ++ rest) = .scalar (.ofJson (.number n)) :: tokens rest := by
  -- Which reader a number meets depends on its first character: a digit or the sign.
  cases n with
  | ofNat m =>
      have htext : (toString (Int.ofNat m)).toList = Nat.toDigits 10 m := String.toList_ofList
      obtain ⟨c, cs, hcs⟩ :=
        List.exists_cons_of_length_pos (Nat.length_toDigits_pos (b := 10) (n := m))
      have hdigit : c.isDigit = true :=
        Number.isDigit_of_mem_toDigits c (hcs ▸ List.mem_cons_self)
      have hread := numberToken_toDigits false m hrest
      have hsign : decide (Int.ofNat m < 0) = false :=
        decide_eq_false (Int.not_lt.2 (Int.natCast_nonneg m))
      rw [hcs, List.cons_append] at hread
      rw [htext, hcs, List.cons_append, tokens_digit hdigit, hread, Document.ofJson, hsign, ← hcs]
      rfl
  | negSucc m =>
      have htext : (toString (Int.negSucc m)).toList = '-' :: Nat.toDigits 10 (m + 1) := by
        show ("-" ++ Nat.repr (m + 1)).toList = _
        rw [String.toList_append]
        exact congrArg ('-' :: ·) String.toList_ofList
      have htoken : token '-' (Nat.toDigits 10 (m + 1) ++ rest) = _ :=
        numberToken_toDigits true (m + 1) hrest
      have hsign : decide (Int.negSucc m < 0) = true := decide_eq_true (Int.negSucc_lt_zero m)
      rw [htext, List.cons_append, tokens_cons rfl, htoken, Document.ofJson, hsign]
      rfl

/-- Every mark is a token of its own. -/
theorem tokens_mark (cs : List Char) :
    tokens ('[' :: cs) = .openArray :: tokens cs ∧ tokens (']' :: cs) = .closeArray :: tokens cs ∧
      tokens ('\x7b' :: cs) = .openObject :: tokens cs ∧
      tokens ('\x7d' :: cs) = .closeObject :: tokens cs ∧
      tokens (',' :: cs) = .comma :: tokens cs ∧ tokens (':' :: cs) = .colon :: tokens cs :=
  ⟨tokens_cons rfl, tokens_cons rfl, tokens_cons rfl, tokens_cons rfl, tokens_cons rfl,
    tokens_cons rfl⟩

theorem endsNumber_head {c : Char} (h : endsNumber c) (cs : List Char) :
    ∀ d ∈ (c :: cs).head?, endsNumber d := by
  rintro _ ⟨⟩
  exact h

/-! ### On one line

By recursion over values, items and fields together. What comes behind a value has to end a number,
as the comma, the bracket or the end of the text does that follows it. -/

mutual

theorem tokens_chars : ∀ (j : Json) {rest : List Char}, (∀ c ∈ rest.head?, endsNumber c) →
    tokens (chars j ++ rest) = spell j ++ tokens rest
  | .null, _, _ => tokens_cons rfl
  | .bool true, _, _ => tokens_cons rfl
  | .bool false, _, _ => tokens_cons rfl
  | .number n, _, hrest => tokens_number n hrest
  | .string s, _, _ => tokens_stringChars s
  | .array items, rest, _ => by
      have hclose := endsNumber_head (c := ']') (by decide) rest
      simp only [chars, spell, List.cons_append, List.append_assoc, List.nil_append, tokens_mark,
        tokens_itemChars items hclose]
  | .object fields, rest, _ => by
      have hclose := endsNumber_head (c := '\x7d') (by decide) rest
      simp only [chars, spell, List.cons_append, List.append_assoc, List.nil_append, tokens_mark,
        tokens_fieldChars fields hclose]

theorem tokens_itemChars : ∀ (js : List Json) {rest : List Char},
    (∀ c ∈ rest.head?, endsNumber c) → tokens (itemChars js ++ rest) = spellItems js ++ tokens rest
  | [], _, _ => rfl
  | [j], _, hrest => tokens_chars j hrest
  | j :: k :: js, rest, hrest => by
      have hcomma := endsNumber_head (c := ',') (by decide) (itemChars (k :: js) ++ rest)
      show tokens ((chars j ++ ',' :: itemChars (k :: js)) ++ rest) =
        (spell j ++ .comma :: spellItems (k :: js)) ++ tokens rest
      simp only [List.cons_append, List.append_assoc, tokens_chars j hcomma, tokens_mark,
        tokens_itemChars (k :: js) hrest]

theorem tokens_fieldChars : ∀ (fs : List (String × Json)) {rest : List Char},
    (∀ c ∈ rest.head?, endsNumber c) →
      tokens (fieldChars fs ++ rest) = spellFields fs ++ tokens rest
  | [], _, _ => rfl
  | [(k, j)], rest, hrest => by
      simp only [fieldChars, spellFields, List.cons_append, List.append_assoc, tokens_stringChars,
        tokens_mark, tokens_chars j hrest]
  | (k, j) :: f :: fs, rest, hrest => by
      have hcomma := endsNumber_head (c := ',') (by decide) (fieldChars (f :: fs) ++ rest)
      show tokens ((stringChars k ++ ':' :: chars j ++ ',' :: fieldChars (f :: fs)) ++ rest) =
        (.string (.ok k) :: .colon :: spell j ++ .comma :: spellFields (f :: fs)) ++ tokens rest
      simp only [List.cons_append, List.append_assoc, tokens_stringChars, tokens_mark,
        tokens_chars j hcomma, tokens_fieldChars (f :: fs) hrest]

end

/-! ### Over several lines

A line break with its blanks is no token, so that the same recursion goes through at any depth. -/

theorem newLine_head (depth : Nat) (cs : List Char) :
    ∀ d ∈ (newLine depth ++ cs).head?, endsNumber d :=
  endsNumber_head (by decide) _

mutual

theorem tokens_prettyChars : ∀ (depth : Nat) (j : Json) {rest : List Char},
    (∀ c ∈ rest.head?, endsNumber c) → tokens (prettyChars depth j ++ rest) = spell j ++ tokens rest
  | _, .null, _, _ => tokens_cons rfl
  | _, .bool true, _, _ => tokens_cons rfl
  | _, .bool false, _, _ => tokens_cons rfl
  | _, .number n, _, hrest => tokens_number n hrest
  | _, .string s, _, _ => tokens_stringChars s
  | _, .array [], rest, _ => by
      simp only [prettyChars, spell, spellItems, List.cons_append, List.nil_append, tokens_mark]
  | _, .object [], rest, _ => by
      simp only [prettyChars, spell, spellFields, List.cons_append, List.nil_append, tokens_mark]
  | depth, .array (j :: js), rest, _ => by
      have hline := newLine_head depth (']' :: rest)
      simp only [prettyChars, spell, List.cons_append, List.append_assoc, List.nil_append,
        tokens_mark, tokens_prettyItems (depth + 1) (j :: js) hline, tokens_newLine]
  | depth, .object (f :: fs), rest, _ => by
      have hline := newLine_head depth ('\x7d' :: rest)
      simp only [prettyChars, spell, List.cons_append, List.append_assoc, List.nil_append,
        tokens_mark, tokens_prettyFields (depth + 1) (f :: fs) hline, tokens_newLine]

theorem tokens_prettyItems : ∀ (depth : Nat) (js : List Json) {rest : List Char},
    (∀ c ∈ rest.head?, endsNumber c) →
      tokens (prettyItems depth js ++ rest) = spellItems js ++ tokens rest
  | _, [], _, _ => rfl
  | depth, [j], rest, hrest => by
      simp only [prettyItems, spellItems, List.append_assoc, tokens_newLine,
        tokens_prettyChars depth j hrest]
  | depth, j :: k :: js, rest, hrest => by
      have hcomma := endsNumber_head (c := ',') (by decide) (prettyItems depth (k :: js) ++ rest)
      show tokens ((newLine depth ++ prettyChars depth j ++ ',' :: prettyItems depth (k :: js)) ++
        rest) = (spell j ++ .comma :: spellItems (k :: js)) ++ tokens rest
      simp only [List.cons_append, List.append_assoc, tokens_newLine,
        tokens_prettyChars depth j hcomma, tokens_mark, tokens_prettyItems depth (k :: js) hrest]

theorem tokens_prettyFields : ∀ (depth : Nat) (fs : List (String × Json)) {rest : List Char},
    (∀ c ∈ rest.head?, endsNumber c) →
      tokens (prettyFields depth fs ++ rest) = spellFields fs ++ tokens rest
  | _, [], _, _ => rfl
  | depth, [(k, j)], rest, hrest => by
      simp only [prettyFields, spellFields, List.cons_append, List.append_assoc, tokens_newLine,
        tokens_stringChars, tokens_mark, tokens_space (c := ' ') rfl,
        tokens_prettyChars depth j hrest]
  | depth, (k, j) :: f :: fs, rest, hrest => by
      have hcomma := endsNumber_head (c := ',') (by decide) (prettyFields depth (f :: fs) ++ rest)
      show tokens ((newLine depth ++ stringChars k ++ ':' :: ' ' :: prettyChars depth j ++
        ',' :: prettyFields depth (f :: fs)) ++ rest) =
          (.string (.ok k) :: .colon :: spell j ++ .comma :: spellFields (f :: fs)) ++ tokens rest
      simp only [List.cons_append, List.append_assoc, tokens_newLine, tokens_stringChars,
        tokens_mark, tokens_space (c := ' ') rfl, tokens_prettyChars depth j hcomma,
        tokens_prettyFields depth (f :: fs) hrest]

end

/-! ## From tokens to documents

A reader keeps the frames of the arrays and objects that it is in. The tokens of a value take it
from a place where a value may stand to what comes after that value. -/

namespace Place

/-- A value may stand here, among what is complete of the arrays and objects around it. -/
def Awaits (p : Place) (fs : List Frame) : Prop :=
  ∀ t, t ≠ .closeArray → t ≠ .closeObject → p.advance t = enter fs t

variable {p : Place} {fs : List Frame} {t : Token}

theorem awaits_value (fs : List Frame) : (value fs).Awaits fs := fun _ _ _ => rfl

theorem awaits_firstItem (fs : List Frame) : (firstItem fs).Awaits (.array [] :: fs) := by
  intro t hclose _
  cases t with
  | closeArray => exact absurd rfl hclose
  | _ => rfl

theorem awaits_nextItem (before : List Document) (fs : List Frame) :
    (nextItem before fs).Awaits (.array before :: fs) := by
  intro t hclose _
  cases t with
  | closeArray => exact absurd rfl hclose
  | _ => rfl

/-- A mark that closes begins no value. -/
theorem Awaits.advance {q : Place} (h : p.Awaits fs) (hq : enter fs t = q)
    (hstop : ∀ d, q ≠ .stopped d) : p.advance t = q := by
  subst hq
  apply h
  all_goals
    rintro rfl
    exact hstop _ rfl

end Place

mutual

/-- **The tokens of a value become its document**, wherever a value may stand. -/
theorem foldl_spell : ∀ (j : Json) {p : Place} {fs : List Frame} (ts : List Token), p.Awaits fs →
    (spell j ++ ts).foldl Place.advance p = ts.foldl Place.advance (.after (.ofJson j) fs)
  | .null, _, _, ts, h => congrArg (ts.foldl _) (h.advance rfl nofun)
  | .bool _, _, _, ts, h => congrArg (ts.foldl _) (h.advance rfl nofun)
  | .number _, _, _, ts, h => congrArg (ts.foldl _) (h.advance rfl nofun)
  | .string _, _, _, ts, h => congrArg (ts.foldl _) (h.advance rfl nofun)
  | .array items, p, fs, ts, h => by
      have hopen : p.advance .openArray = .firstItem fs := h.advance rfl nofun
      rw [spell, List.cons_append, List.cons_append, List.append_assoc, List.foldl_cons, hopen]
      match items with
      | [] => rfl
      | j :: js => exact foldl_spellItems (j :: js) [] ts nofun (Place.awaits_firstItem fs)
  | .object fields, p, fs, ts, h => by
      have hopen : p.advance .openObject = .firstName fs := h.advance rfl nofun
      rw [spell, List.cons_append, List.cons_append, List.append_assoc, List.foldl_cons, hopen]
      match fields with
      | [] => rfl
      | f :: more => exact foldl_spellFields (f :: more) [] ts nofun fun _ => rfl

/-- The items of an array come behind those before them. -/
theorem foldl_spellItems : ∀ (js : List Json) {p : Place} {fs : List Frame}
    (before : List Document) (ts : List Token), js ≠ [] → p.Awaits (.array before :: fs) →
    (spellItems js ++ .closeArray :: ts).foldl Place.advance p =
      ts.foldl Place.advance (.after (.array (before.reverse ++ Document.ofItems js) none) fs)
  | [], _, _, _, _, hne, _ => absurd rfl hne
  | [j], p, fs, before, ts, _, h => by
      rw [spellItems, foldl_spell j _ h, List.foldl_cons, Place.advance, List.reverse_cons]
      rfl
  | j :: k :: js, p, fs, before, ts, _, h => by
      show ((spell j ++ .comma :: spellItems (k :: js)) ++ .closeArray :: ts).foldl _ _ = _
      rw [List.append_assoc, foldl_spell j _ h, List.cons_append, List.foldl_cons, Place.advance,
        foldl_spellItems (k :: js) (.ofJson j :: before) ts nofun (Place.awaits_nextItem _ fs),
        List.reverse_cons, List.append_assoc]
      rfl

/-- The fields of an object come behind those before them. -/
theorem foldl_spellFields : ∀ (more : List (String × Json)) {p : Place} {fs : List Frame}
    (before : List (Literal × Document)) (ts : List Token), more ≠ [] →
    (∀ name, p.advance (.string name) = .colon before name fs) →
    (spellFields more ++ .closeObject :: ts).foldl Place.advance p =
      ts.foldl Place.advance (.after (.object (before.reverse ++ Document.ofFields more) none) fs)
  | [], _, _, _, _, hne, _ => absurd rfl hne
  | [(k, j)], p, fs, before, ts, _, h => by
      rw [spellFields, List.cons_append, List.cons_append, List.foldl_cons, h, List.foldl_cons,
        Place.advance, foldl_spell j _ (Place.awaits_value _), List.foldl_cons, Place.advance,
        List.reverse_cons]
      rfl
  | (k, j) :: f :: more, p, fs, before, ts, _, h => by
      show ((.string (.ok k) :: .colon :: (spell j ++ .comma :: spellFields (f :: more))) ++
        .closeObject :: ts).foldl _ _ = _
      rw [List.cons_append, List.cons_append, List.foldl_cons, h, List.foldl_cons, Place.advance,
        List.append_assoc, foldl_spell j _ (Place.awaits_value _), List.cons_append,
        List.foldl_cons, Place.advance,
        foldl_spellFields (f :: more) ((.ok k, .ofJson j) :: before) ts nofun fun _ => rfl,
        List.reverse_cons, List.append_assoc]
      rfl

end

/-! ## Whole texts

Both texts have the same tokens, so they have the same document. -/

/-- A text with the tokens of a value holds the document of the value and nothing else. -/
theorem read_of_tokens {s : String} {j : Json} (h : tokens s.toList = spell j) :
    read s = ⟨.ofJson j, false⟩ := by
  have hfold := foldl_spell j [] (Place.awaits_value [])
  rw [List.append_nil] at hfold
  rw [read, h, hfold]
  rfl

/-- **The text of a value is read back.** -/
theorem read_text (j : Json) : read j.text = ⟨.ofJson j, false⟩ := by
  apply read_of_tokens
  have htokens : tokens (chars j ++ []) = _ := tokens_chars j nofun
  rwa [List.append_nil, tokens, List.append_nil, ← String.toList_ofList (l := chars j)] at htokens

/-- **The text of a value over several lines is read back.** -/
theorem read_pretty (j : Json) : read j.pretty = ⟨.ofJson j, false⟩ := by
  apply read_of_tokens
  have htokens : tokens (prettyChars 0 j ++ []) = _ := tokens_prettyChars 0 j nofun
  rwa [List.append_nil, tokens, List.append_nil,
    ← String.toList_ofList (l := prettyChars 0 j)] at htokens

end NetAudit.Json
