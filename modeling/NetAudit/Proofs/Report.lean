import Mathlib.Data.List.Flatten
import NetAudit.Proofs.Request.Presentation
import NetAudit.Proofs.Run.Shown
import NetAudit.Proofs.Text.Lines

/-!
# Details cannot pass for results

A report is read as a text, or as the body of a message. The details in it hold what devices have
sent, which may be anything, line ends included. They are indented line by line, so the lines
without an indent are those of the report without its details: `Report.texts_unforged` compares two
reports with the same results, whatever their details are.
-/

namespace NetAudit

/-- The report without its details. -/
def Report.outline (r : Report) : Report := { r.plain with run := r.run }

namespace Report

variable {r r' : Report}

/-! ## Indents

Each line of a detail is indented by four blanks. A line of the report without its details is
not. -/

/-- A line in the way in which those of details are written. -/
def indent (line : String) : String := "    " ++ line

/-- The line is neither empty nor indented. -/
def isOutline (line : String) : Bool :=
  line ≠ "" && !"    ".toList.isPrefixOf line.toList

theorem isOutline_indent (line : String) : isOutline (indent line) = false := by
  have hprefix : "    ".toList.isPrefixOf (indent line).toList = true := by
    rw [indent, String.toList_append]
    exact List.isPrefixOf_iff_prefix.2 (List.prefix_append _ _)
  rw [isOutline, hprefix, Bool.not_true, Bool.and_false]

/-- No carriage return at the end of a line is that of its indent. -/
theorem dropReturn_indent (line : String) :
    Text.dropReturn (indent line) = indent (Text.dropReturn line) := by
  have hchars : (indent line).toList = "    ".toList ++ line.toList := String.toList_append
  by_cases hempty : line.toList = []
  · rw [String.toList_eq_nil_iff.1 hempty]
    rfl
  · unfold Text.dropReturn
    rw [hchars, List.getLast?_append_of_ne_nil _ hempty]
    split
    · rw [List.dropLast_append_of_ne_nil hempty, String.ofList_append]
      rfl
    · rfl

/-- A line of a detail has no line feed. -/
theorem not_mem_indent {detail line : String} (h : line ∈ Text.lines detail) :
    '\n' ∉ (indent line).toList := by
  obtain ⟨l, hl, rfl⟩ := List.mem_map.1 h
  have hline : '\n' ∉ (String.ofList l).toList := by
    rw [String.toList_ofList]
    exact Text.not_mem_of_mem_lineChars hl
  rw [indent, String.toList_append]
  exact fun hmem => (List.mem_append.1 hmem).elim (by decide) hline

/-! ## Ways of reading

A text can be read with carriage returns as parts of its lines, or without those in front of a line
feed. What is needed of both is that lines are read one by one and an indent stays. -/

/-- What a report writes before a line feed is read by `read`. Of a line of a detail it reads the
indent, and behind that what `trim` leaves of the line. -/
structure IsReading (read : String → List String) (trim : String → String) : Prop where
  empty : read "" = [""]
  indented {line : String} (h : '\n' ∉ (indent line).toList) :
    read (indent line) = [indent (trim line)]

/-- Between line feeds, lines of details are read as they are. -/
theorem isReading_feeds : IsReading Text.feeds id where
  empty := rfl
  indented := Text.feeds_of_not_mem

/-- As a text is read by lines, carriage returns before line feeds are left out. -/
theorem isReading_lines : IsReading (fun s => Text.lines (s ++ "\n")) Text.dropReturn where
  empty := rfl
  indented h := by rw [Text.lines_feed h, dropReturn_indent]

namespace IsReading

variable {read : String → List String} {trim : String → String}

/-- The lines of a detail are read back. -/
theorem flatMap_detailLines (h : IsReading read trim) (detail : String) :
    (detailLines detail).flatMap read =
      "" :: (Text.lines detail).map fun line => indent (trim line) := by
  have hlines : ∀ line ∈ Text.lines detail, read (indent line) = [indent (trim line)] :=
    fun line hline => h.indented (not_mem_indent hline)
  show read "" ++ ((Text.lines detail).map indent).flatMap read = _
  rw [List.flatMap_map, List.flatMap_congr hlines, ← List.map_eq_flatMap, h.empty]
  rfl

/-- No line of a detail is one of the outline. -/
theorem filter_flatMap_detailLines (h : IsReading read trim) (detail : String) :
    ((detailLines detail).flatMap read).filter isOutline = [] := by
  rw [h.flatMap_detailLines, List.filter_eq_nil_iff]
  intro line hline
  obtain rfl | hline := List.mem_cons.1 hline
  · decide
  · obtain ⟨_, -, rfl⟩ := List.mem_map.1 hline
    rw [isOutline_indent]
    exact Bool.false_ne_true

end IsReading

/-! ## Reports

The lines of a report are its header and, for each kind, a line and its details. Without its
indented lines it is the report that has no details. -/

/-- The details of all kinds. -/
def details (r : Report) : List String := r.kinds.values.flatMap KindReport.details

/-- The details of a kind stand behind its other lines. -/
theorem kindLines_eq (tag : String) (k : KindReport) :
    kindLines tag k = kindLines tag k.plain ++ k.details.flatMap detailLines := by
  have hplain : kindLines tag k.plain = "" :: kindLine tag k ::
      k.errorCounts.toList.map (fun e => "  " ++ e.1 ++ ": " ++ toString e.2) ++ [] := rfl
  rw [hplain, List.append_nil]
  rfl

/-- The head of a report does not depend on details. -/
theorem header_outline (r : Report) : r.outline.header = r.header := by
  have hvalues : r.outline.kinds.values = r.kinds.values.map KindReport.plain :=
    OrderedMap.values_mapValues _ _
  unfold header recordTotal errorTotal
  rw [hvalues, List.map_map, List.map_map]
  rfl

/-- Without details, only they are left out of the lines of each kind. -/
theorem textLines_outline (r : Report) :
    r.outline.textLines = r.header ++ r.kinds.toList.flatMap fun e => kindLines e.1 e.2.plain := by
  have hkinds : r.outline.kinds.toList = r.kinds.toList.map fun e => (e.1, e.2.plain) := rfl
  unfold textLines
  rw [header_outline, hkinds, List.flatMap_map]

/-- Details stand between the other lines, which are all there. -/
theorem textLines_outline_sublist (r : Report) : r.outline.textLines.Sublist r.textLines := by
  rw [textLines_outline, textLines]
  apply List.Sublist.append_left
  apply List.Sublist.flatMap_right
  intro e _
  rw [kindLines_eq e.1 e.2]
  exact List.sublist_append_left _ _

namespace IsReading

variable {read : String → List String} {trim : String → String}

/-- The lines of the outline are those of the report without its details. -/
theorem filter_flatMap_textLines (h : IsReading read trim) (r : Report) :
    (r.textLines.flatMap read).filter isOutline =
      (r.outline.textLines.flatMap read).filter isOutline := by
  have hkind : ∀ e ∈ r.kinds.toList,
      ((kindLines e.1 e.2).flatMap read).filter isOutline =
        ((kindLines e.1 e.2.plain).flatMap read).filter isOutline := by
    intro e _
    -- The details are all that a plain result lacks, and none of their lines stays.
    have hdetails : ((e.2.details.flatMap detailLines).flatMap read).filter isOutline = [] := by
      rw [List.flatMap_assoc, List.filter_flatMap]
      exact List.flatMap_eq_nil_iff.2 fun detail _ => h.filter_flatMap_detailLines detail
    rw [kindLines_eq, List.flatMap_append, List.filter_append, hdetails, List.append_nil]
  rw [textLines_outline, textLines, List.flatMap_append, List.flatMap_append, List.filter_append,
    List.filter_append, List.flatMap_assoc, List.flatMap_assoc]
  apply congrArg
  rw [List.filter_flatMap, List.filter_flatMap, List.flatMap_congr hkind]

/-- The lines of all details are read in their order, each with an indent. -/
theorem sublist_flatMap_textLines (h : IsReading read trim) (r : Report) :
    ((r.details.flatMap Text.lines).map fun line => indent (trim line)).Sublist
      (r.textLines.flatMap read) := by
  have hdetails : (r.details.flatMap Text.lines).map (fun line => indent (trim line)) =
      r.kinds.toList.flatMap fun e => e.2.details.flatMap fun detail =>
        (Text.lines detail).map fun line => indent (trim line) := by
    rw [details, OrderedMap.values, List.flatMap_map, List.flatMap_assoc, List.map_flatMap]
    simp only [List.map_flatMap]
  rw [hdetails, textLines, List.flatMap_append, List.flatMap_assoc]
  apply List.Sublist.trans _ (List.sublist_append_right _ _)
  apply List.Sublist.flatMap_right
  intro e _
  rw [kindLines_eq, List.flatMap_append, List.flatMap_assoc]
  apply List.Sublist.trans _ (List.sublist_append_right _ _)
  apply List.Sublist.flatMap_right
  intro detail _
  rw [h.flatMap_detailLines]
  exact List.sublist_cons_self _ _

end IsReading

/-! ## Texts of reports

A report is read as its text, or as the body of a message, which is the same text. -/

/-- A text that is handed out of a report: the report as a text, or the body of a message. -/
inductive IsReadAs (r : Report) : String → Prop where
  | text : r.IsReadAs r.text
  | body {c : Config} {message : Notification} (h : Notification.ofReport c r = .ok message) :
      r.IsReadAs message.body

theorem IsReadAs.eq_text {s : String} (h : r.IsReadAs s) : s = r.text := by
  cases h with
  | text => rfl
  | body h => exact (Notification.ofReport_eq_ok_iff.1 h).2.2.2

/-- As `read` takes a text apart, the text `s` of a report and the text `s'` of another have the
same results in them, and `s` shows its details. Of each line of a detail `trim` leaves what is
read. -/
structure Unforged (read : String → List String) (trim : String → String) (r : Report)
    (s s' : String) : Prop where
  /-- Without empty lines and indented ones, both texts have the same lines. -/
  results : (read s').filter isOutline = (read s).filter isOutline
  /-- The lines of the report without its details are all there, indented ones too. -/
  outline : (read r.outline.text).Sublist (read s)
  /-- The lines of all details stand in the text, in their order, each with an indent. -/
  details : ((r.details.flatMap Text.lines).map fun line => indent (trim line)).Sublist (read s)

/-- Texts are read as their lines are, with `rest` behind the last one. -/
theorem IsReading.unforged {read readText : String → List String} {trim : String → String}
    {rest : List String} (h : IsReading read trim)
    (htext : ∀ r : Report, readText r.text = r.textLines.flatMap read ++ rest)
    (houtline : r'.outline = r.outline) : Unforged readText trim r r.text r'.text where
  results := by
    rw [htext, htext, List.filter_append, List.filter_append, h.filter_flatMap_textLines r',
      h.filter_flatMap_textLines r, houtline]
  outline := by
    rw [htext, htext]
    exact ((textLines_outline_sublist r).flatMap read).append_right rest
  details := by
    rw [htext]
    exact (h.sublist_flatMap_textLines r).trans (List.sublist_append_left _ _)

/-- **Details cannot pass for results.** Two reports may be equal but for their details. Then texts
of them have the same results in them, whether lines are what stands between line feeds, or may also
end with a carriage return and a line feed. -/
theorem texts_unforged (houtline : r'.outline = r.outline) {s s' : String} (hs : r.IsReadAs s)
    (hs' : r'.IsReadAs s') :
    Unforged Text.feeds id r s s' ∧ Unforged Text.lines Text.dropReturn r s s' := by
  have hfeeds : ∀ r : Report, Text.feeds r.text = r.textLines.flatMap Text.feeds ++ [""] :=
    fun r => Text.feeds_join r.textLines
  have hlines : ∀ r : Report,
      Text.lines r.text = (r.textLines.flatMap fun line => Text.lines (line ++ "\n")) ++ [] :=
    fun r => (Text.lines_join r.textLines).trans (List.append_nil _).symm
  rw [hs.eq_text, hs'.eq_text]
  exact ⟨isReading_feeds.unforged hfeeds houtline, isReading_lines.unforged hlines houtline⟩

/-- A report on one ping that has no error, with given details. -/
def ofOnePing (details : List String) : Report where
  run := "run"
  windowStart := .epoch
  windowEnd := .epoch
  kinds := .ofList [("ping", ⟨.ping, none, 1, 0, .empty, false, details⟩)]
  skipped := 0
  repaired := 0
  entryCount := 0
  unscheduled := []

/-- A detail has what looks like lines of a report in it, with all kinds of line ends. The message
has the lines of a report with another detail. -/
theorem texts_unforged_imitation :
    let forged := ofOnePing ["\nping: 9 records, 9 invalid\r\n  other: 9\r\r\n\r", ""]
    let honest := ofOnePing ["Errors: "]
    let addressed : Config := { sender := some "sender", recipient := some "recipient" }
    honest.outline = forged.outline ∧
      ∃ message, Notification.ofReport addressed forged = .ok message ∧
        Unforged Text.feeds id forged message.body honest.text ∧
        Unforged Text.lines Text.dropReturn forged message.body honest.text ∧
        ["    ", "    ping: 9 records, 9 invalid", "      other: 9\r", "    \r"].Sublist
          (Text.feeds message.body) := by
  intro forged honest addressed
  have houtline : honest.outline = forged.outline := rfl
  refine ⟨houtline, ⟨"sender", "recipient", addressed.subject, forged.text⟩, rfl, ?_⟩
  obtain ⟨hfeeds, hlines⟩ := texts_unforged houtline (.body (c := addressed) rfl) .text
  exact ⟨hfeeds, hlines, hfeeds.details⟩

end Report

end NetAudit
