import Mathlib.Data.List.Infix
import Mathlib.Data.String.Basic
import NetAudit.Proofs.Run.Accounts
import NetAudit.Proofs.Text.Lines
import NetAudit.Proofs.Validation.Fetches

/-!
# Values that are read back from their text

The values of a measurement are shown a line each, with a colon and a blank between the name and
the value. The text is read back by its line feeds, and each line by its first separator. A value
may hold separators of its own, and a name may end in a colon: the separator that is found first is
still the one behind the name, as long as the name holds none (`Text.cutChars_eq_some_iff`). So
legible values are read back from their text (`Values.ofDetail?_detail`), whatever measurement they
are of (`Validator.detail_read_back`).
-/

namespace NetAudit

/-! ## Lines that are cut at their separator

A line is cut at the first place where a colon and a blank stand together. -/

namespace Text

/-- What stands in front of the first separator, and what stands behind it. -/
def cutChars : List Char → Option (List Char × List Char)
  | [] => none
  | c :: cs =>
    if c = ':' ∧ cs.head? = some ' ' then some ([], cs.tail)
    else (cutChars cs).map fun p => (c :: p.1, p.2)

/-- The two parts of a line around its first separator. -/
def cut? (line : String) : Option (String × String) :=
  (cutChars line.toList).map fun p => (String.ofList p.1, String.ofList p.2)

section Characters

variable {c : Char} {cs k v : List Char}

theorem cutChars_separator (v : List Char) : cutChars (':' :: ' ' :: v) = some ([], v) := rfl

theorem cutChars_cons (h : ¬ (c = ':' ∧ cs.head? = some ' ')) :
    cutChars (c :: cs) = (cutChars cs).map fun p => (c :: p.1, p.2) := by
  rw [cutChars, if_neg h]

/-- A separator lies in a text if it opens it or lies in what follows its first character. -/
theorem separator_infix_cons :
    [':', ' '] <:+: c :: cs ↔ (c = ':' ∧ cs.head? = some ' ') ∨ [':', ' '] <:+: cs := by
  rw [List.infix_cons_iff, List.cons_prefix_cons, @eq_comm _ ':']
  cases cs with
  | nil => simp
  | cons d ds => simp [@eq_comm _ ' ']

/-- **The first separator** is the one with no other in front of it. It can still stand behind a
colon, which then belongs to the part in front. -/
theorem cutChars_eq_some_iff :
    cutChars cs = some (k, v) ↔ cs = k ++ ':' :: ' ' :: v ∧ ¬ [':', ' '] <:+: k := by
  induction cs generalizing k with
  | nil => simp [cutChars]
  | cons c cs ih =>
      by_cases hsep : c = ':' ∧ cs.head? = some ' '
      · -- The text opens with a separator, so that nothing stands in front.
        obtain ⟨rfl, hhead⟩ := hsep
        obtain ⟨ds, rfl⟩ := List.head?_eq_some_iff.1 hhead
        rw [cutChars_separator]
        cases k with
        | nil => simp
        | cons a k =>
            have hnone : ¬ (':' :: ' ' :: ds = a :: k ++ ':' :: ' ' :: v ∧
                ¬ [':', ' '] <:+: a :: k) := by
              rintro ⟨heq, hfree⟩
              obtain ⟨rfl, htail⟩ := List.cons.inj heq
              apply hfree
              cases k with
              | nil => cases htail
              | cons b k =>
                  obtain ⟨rfl, -⟩ := List.cons.inj htail
                  exact separator_infix_cons.2 (.inl ⟨rfl, rfl⟩)
            simpa using hnone
      · rw [cutChars_cons hsep]
        cases k with
        | nil =>
            have hne : c :: cs ≠ ':' :: ' ' :: v := by
              intro heq
              obtain ⟨rfl, rfl⟩ := List.cons.inj heq
              exact hsep ⟨rfl, rfl⟩
            simp [hne]
        | cons a k =>
            have hstep : (cutChars cs).map (fun p => (c :: p.1, p.2)) = some (a :: k, v) ↔
                c = a ∧ cutChars cs = some (k, v) := by
              cases cutChars cs <;> simp [Prod.ext_iff, and_assoc]
            rw [hstep, ih, List.cons_append, List.cons.injEq, and_assoc]
            refine and_congr_right fun hca => and_congr_right fun hcs => not_congr ?_
            subst hca hcs
            rw [separator_infix_cons]
            refine (or_iff_right_of_imp ?_).symm
            -- A separator that opens the part in front opens the whole text.
            rintro ⟨hc, hhead⟩
            exact absurd ⟨hc, by rw [List.head?_append, hhead]; rfl⟩ hsep

/-- Texts in order have their code points in order. -/
theorem codes_lt {ds : List Char} (h : cs < ds) : cs.map Char.toNat < ds.map Char.toNat := by
  induction cs generalizing ds with
  | nil =>
      cases ds with
      | nil => exact absurd h (List.lt_irrefl _)
      | cons d ds => exact List.nil_lt_cons _ _
  | cons c cs ih =>
      cases ds with
      | nil => exact absurd h (List.not_lt_nil _)
      | cons d ds =>
          rw [List.map_cons, List.map_cons, List.cons_lt_cons_iff]
          exact (List.cons_lt_cons_iff.1 h).imp id (And.imp (congrArg Char.toNat) ih)

end Characters

/-- A line is cut behind its name, whatever the value. -/
theorem cut?_line {name : String} (value : String) (h : ¬ [':', ' '] <:+: name.toList) :
    cut? (name ++ ": " ++ value) = some (name, value) := by
  have hchars : (name ++ ": " ++ value).toList = name.toList ++ ':' :: ' ' :: value.toList := by
    rw [String.toList_append, String.toList_append, List.append_assoc]
    rfl
  rw [cut?, hchars, cutChars_eq_some_iff.2 ⟨rfl, h⟩, Option.map_some, String.ofList_toList,
    String.ofList_toList]

end Text

/-! ## Values

With names and values that hold no line feed each value has one line, and with names that hold no
separator each line is cut behind its name. -/

namespace Values

/-- The line of a value. -/
def line (e : String × String) : String := e.1 ++ ": " ++ e.2

/-- No name and no value holds a line feed, and no name holds a separator. -/
structure Legible (vs : Values) : Prop where
  name_feed : ∀ e ∈ vs.toList, '\n' ∉ e.1.toList
  value_feed : ∀ e ∈ vs.toList, '\n' ∉ e.2.toList
  name_separator : ∀ e ∈ vs.toList, ¬ [':', ' '] <:+: e.1.toList

/-- The names and values in a text with a line feed behind each line; none if a line has no
separator. -/
def ofDetail? (text : String) : Option (List (String × String)) :=
  (Text.feeds text).dropLast.mapM Text.cut?

variable {vs ws : Values}

theorem feeds_line {e : String × String} (hname : '\n' ∉ e.1.toList) (hvalue : '\n' ∉ e.2.toList) :
    Text.feeds (line e) = [line e] := by
  apply Text.feeds_of_not_mem
  rw [line, String.toList_append, String.toList_append, List.mem_append, List.mem_append]
  rintro ((h | h) | h)
  · exact hname h
  · exact absurd h (by decide)
  · exact hvalue h

/-- The text of legible values is their lines, and nothing behind the last line feed. -/
theorem feeds_detail (h : vs.Legible) : Text.feeds vs.detail = vs.toList.map line ++ [""] := by
  have hdetail : vs.detail = String.join ((vs.toList.map line).map (· ++ "\n")) := by
    rw [List.map_map]
    rfl
  have hlines : (vs.toList.map line).flatMap Text.feeds = vs.toList.map line := by
    rw [List.flatMap_map, List.flatMap_congr fun e he =>
      feeds_line (h.name_feed e he) (h.value_feed e he), List.map_eq_flatMap]
  rw [hdetail, Text.feeds_join, hlines]

/-- Lines are cut behind their names. -/
theorem mapM_cut?_line {es : List (String × String)} (h : ∀ e ∈ es, ¬ [':', ' '] <:+: e.1.toList) :
    (es.map line).mapM Text.cut? = some es := by
  induction es with
  | nil => rfl
  | cons e es ih =>
      obtain ⟨he, hes⟩ := List.forall_mem_cons.1 h
      rw [List.map_cons, List.mapM_cons, line, Text.cut?_line e.2 he, ih hes]
      rfl

/-- **Legible values are read back from their text.** -/
theorem ofDetail?_detail (h : vs.Legible) : ofDetail? vs.detail = some vs.toList := by
  rw [ofDetail?, feeds_detail h, List.dropLast_concat, mapM_cut?_line h.name_separator]

/-- Legible values with the same text are the same. -/
theorem detail_inj (hv : vs.Legible) (hw : ws.Legible) (h : vs.detail = ws.detail) : vs = ws := by
  have hread := ofDetail?_detail hv
  rw [h, ofDetail?_detail hw] at hread
  exact OrderedMap.ext (Option.some.inj hread).symm

/-- The names ascend by their code points. -/
theorem pairwise_codes (vs : Values) :
    (vs.keys.map fun name => name.toList.map Char.toNat).Pairwise (· < ·) := by
  apply List.pairwise_map.2
  apply (OrderedMap.pairwise_keys vs).imp
  intro j k hjk
  exact Text.codes_lt (String.lt_iff_toList_lt.1 (compare_lt_iff_lt.1 hjk))

end Values

/-! ## Validators

A validator works on the values of its measurement, and on some of its parameters. -/

/-- The values of a measurement that are scored and shown: a fetch takes its address from its
parameters, if it stands there. -/
def Measurement.working (m : Measurement) : Values :=
  if m.kind = .http then Http.working m.parameters m.values else m.values

namespace Validator

variable {m : Measurement} {v : Validator}

theorem values_eq_working (h : of? m = .ok v) : v.values = m.working := by
  unfold of? at h
  unfold Measurement.working
  cases hkind : m.kind with
  | ping | dnsLookup | traceroute | http | udpBurst =>
      rw [hkind] at h
      cases h
      rfl
  | tcpThroughput | rrc | other =>
      rw [hkind] at h
      cases h

/-- What a validator shows of its measurement. -/
structure Renders (v : Validator) (m : Measurement) : Prop where
  /-- Other measurements than fetches are shown with the values that they came with. -/
  plain : m.kind ≠ .http → v.values = m.values
  /-- A fetch is shown with the address among its parameters, if there is one, and else with the
  values that it came with. -/
  fetch : m.kind = .http → ∀ name, v.values.find? name =
    if name = "url" then (m.parameters.find? "url").or (m.values.find? "url")
    else m.values.find? name
  /-- Between its line feeds the text has a line for each value, and nothing behind the last. -/
  lines : Text.feeds v.detail = v.values.toList.map Values.line ++ [""]
  /-- The lines, cut at their first separators, are the values. -/
  read : Values.ofDetail? v.detail = some v.values.toList
  /-- The names ascend by their code points, so that none stands twice. -/
  ascending : (v.values.keys.map fun name => name.toList.map Char.toNat).Pairwise (· < ·)
  /-- Other legible values would be shown as another text. -/
  determined : ∀ n w, of? n = .ok w → n.working.Legible → w.detail = v.detail → w.values = v.values

/-- **The text that is shown determines the values.** The measurement of each kind that is validated
has a validator, and if no name and no value in it holds a line feed and no name a colon with a
blank behind it, then the text of the validator, split at its line feeds and each line at its first
separator, is the validator's values again. -/
theorem detail_read_back (m : Measurement) (hkind : m.kind.isValidated = true)
    (hlegible : m.working.Legible) : ∃ v, of? m = .ok v ∧ v.Renders m := by
  obtain ⟨v, hv⟩ := exists_of?_eq_ok hkind
  have hvalues := values_eq_working hv
  have hshown : v.values.Legible := hvalues ▸ hlegible
  refine ⟨v, hv, ?_⟩
  exact {
    plain := by
      intro hplain
      rw [hvalues, Measurement.working, if_neg hplain]
    fetch := by
      intro hfetch name
      rw [hvalues, Measurement.working, if_pos hfetch, Http.find?_working]
      rfl
    lines := Values.feeds_detail hshown
    read := Values.ofDetail?_detail hshown
    ascending := Values.pairwise_codes v.values
    determined := by
      intro n w hw hother hsame
      exact Values.detail_inj (values_eq_working hw ▸ hother) hshown hsame }

/-- A fetch of another address than the one among its values, with a name that ends in a colon, a
name and a value without characters, and a value that holds separators. -/
def colonFetch : Measurement where
  id := ⟨"fetch"⟩
  kind := .http
  timestamp := .epoch
  success := true
  parameters := .ofList [("url", "http://a: b")]
  values := .ofList [("url", "c"), ("code:", ": 200: "), ("", "")]
  device := ⟨"phone"⟩
  task := none

/-- A fetch with separators in its values is read back. -/
theorem colonFetch_read_back :
    colonFetch.kind.isValidated = true ∧ colonFetch.working.Legible ∧
      ∃ v, of? colonFetch = .ok v ∧ v.Renders colonFetch := by
  have hkind : colonFetch.kind.isValidated = true := rfl
  have hlegible : colonFetch.working.Legible := ⟨by decide, by decide, by decide⟩
  exact ⟨hkind, hlegible, detail_read_back colonFetch hkind hlegible⟩

example : Values.ofDetail? colonFetch.working.detail =
    some [("", ""), ("code:", ": 200: "), ("url", "http://a: b")] := by decide

end Validator

end NetAudit
