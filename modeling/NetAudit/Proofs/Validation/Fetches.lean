import Mathlib.Data.List.Basic
import NetAudit.Proofs.Answers
import NetAudit.Proofs.OrderedMap
import NetAudit.Proofs.Validation.Checklists
import NetAudit.Validation.Validator

/-!
# How fetches are judged

A fetch is in order if it has an address and a status code, and, if the code says that it succeeded,
a page and headers that fit what was counted. The rules on a fetch that succeeded are a checklist of
their own, which is gone through after the one for every fetch (`Http.errors_score`); the two rules
about the page share a tag, so they are one rule of that checklist.
-/

namespace NetAudit

namespace Http

variable {vs ws parameters values : Values}

/-! ## Every fetch

A fetch is scored with its address put in among its values, whichever of the two maps that came
from. -/

/-- The address that was asked for: that among the parameters, or else that among the values. -/
def urlOf (parameters values : Values) : Option String :=
  (parameters.find? "url").or (values.find? "url")

theorem find?_working (parameters values : Values) (n : String) :
    (working parameters values).find? n =
      if n = "url" then urlOf parameters values else values.find? n := by
  unfold working urlOf
  cases parameters.find? "url" with
  | none =>
      show values.find? n = _
      split
      · next h => rw [h]; rfl
      · rfl
  | some url =>
      show (values.insert "url" url).find? n = _
      rw [OrderedMap.find?_insert]
      rfl

theorem succeeded_iff :
    succeeded vs = true ↔ ∃ c, vs.Says parseNumber? "code" c ∧ c.same 200 = true := by
  simp only [← Values.readAs_eq_ok_iff]
  unfold succeeded Values.number
  cases Values.readAs parseNumber? vs "code" with
  | ok c => simp
  | error e => simp

theorem rules_eq : checklist.rules = [
    ⟨Tag.nonHttpUrl, fun vs =>
      (Values.readAs some vs "url").map fun url => (Text.unquote url).startsWith "http"⟩,
    ⟨Tag.httpCodeInvalid, fun vs =>
      (Values.readAs parseNumber? vs "code").map fun c => 100 ≤ c && c < 600⟩] := by
  simp only [checklist, Values.text_eq_readAs, Values.number]

/-! ## Fetches that succeeded

The checks of the page are written out in the program, not listed. Here they are put into the form
of a checklist, so that all that is known of checklists holds of them. -/

/-- There is a page, by its text and by its length. -/
def bodyThere (vs : Values) : Except FieldFault Bool :=
  if FieldFault.raises (bodyNotEmpty vs) then .ok false else bodyCounted vs

/-- What is asked of a fetch that succeeded. -/
def successChecklist : Checklist where
  required := successFields
  rules := [
    ⟨Tag.zeroLengthBody, bodyThere⟩,
    ⟨Tag.headerLengthMismatch, headersCounted⟩,
    ⟨Tag.fetchTimeInvalid, fun vs => (vs.number "time_ms").map (between 0 100000)⟩]

theorem nodup_tags : (checklist.tags ++ successChecklist.tags).Nodup := by decide

/-- An outcome without the tag of an empty page gets it once, if one of the two rules fails. -/
theorem errors_checkBody {o : Outcome} (h : Tag.zeroLengthBody ∉ o.errors) (vs : Values) :
    let p := o.check Tag.zeroLengthBody (bodyNotEmpty vs)
    (if p.contains Tag.zeroLengthBody then p
      else p.check Tag.zeroLengthBody (bodyCounted vs)).errors =
      o.errors ++ if FieldFault.raises (bodyThere vs) then [Tag.zeroLengthBody] else [] := by
  intro p
  have hp : p.errors = _ := Outcome.errors_check o Tag.zeroLengthBody (bodyNotEmpty vs)
  unfold Outcome.contains bodyThere
  cases hbody : FieldFault.raises (bodyNotEmpty vs) with
  | true =>
      rw [hbody] at hp
      simp [hp, FieldFault.raises]
  | false =>
      rw [hbody] at hp
      simp [hp, h, Outcome.errors_check]

/-- **The rules on a fetch that succeeded are a checklist.** -/
theorem errors_scoreSuccess {o : Outcome} (h : Tag.zeroLengthBody ∉ o.errors) (vs : Values) :
    (scoreSuccess vs o).errors = o.errors ++ (successChecklist.score vs).errors := by
  have hrequired : Tag.zeroLengthBody ∉ (o.require vs successFields).errors := by
    rw [Outcome.errors_require, List.mem_append]
    rintro (hmem | hmem)
    · exact h hmem
    · exact absurd ((List.filter_sublist.map _).subset hmem) (by decide)
  unfold scoreSuccess
  rw [Outcome.errors_check, Outcome.errors_check, errors_checkBody hrequired,
    Outcome.errors_require, Checklist.errors_score]
  simp only [successChecklist, Rule.raised_cons, Rule.raised_nil, Rule.fails, List.append_assoc,
    List.append_nil]
  rfl

theorem errors_score (vs : Values) :
    (score vs).errors = (checklist.score vs).errors ++
      if succeeded vs then (successChecklist.score vs).errors else [] := by
  have hbody : Tag.zeroLengthBody ∉ (checklist.score vs).errors := by
    intro hmem
    exact absurd ((checklist.errors_sublist vs).subset hmem) (by decide)
  unfold score
  split
  · exact errors_scoreSuccess hbody vs
  · rw [List.append_nil]

theorem errors_sublist (vs : Values) :
    (score vs).errors.Sublist (checklist.tags ++ successChecklist.tags) := by
  rw [errors_score]
  apply (checklist.errors_sublist vs).append
  split
  · exact successChecklist.errors_sublist vs
  · exact List.nil_sublist _

/-! ## What the rules read

Each rule is known by the values that it reads, and by what these have to be. -/

theorem bodyThere_eq_ok_iff :
    bodyThere vs = .ok true ↔
      FieldFault.raises (bodyNotEmpty vs) = false ∧ bodyCounted vs = .ok true := by
  unfold bodyThere
  split
  · next h => simp [h]
  · next h => simp [h]

theorem bodyNotEmpty_eq (vs : Values) :
    bodyNotEmpty vs =
      (Values.readAs some vs "body").map fun body => decide (Text.unquote body ≠ "") := by
  rw [bodyNotEmpty, Values.text_eq_readAs]

theorem bodyThere_congr (h : vs.AgreesOn ["body", "body_len"] ws) :
    bodyThere vs = bodyThere ws := by
  unfold bodyThere bodyCounted Values.number
  rw [bodyNotEmpty_eq, bodyNotEmpty_eq, Values.readAs_congr (h "body" (by simp)),
    Values.readAs_congr (h "body_len" (by simp))]

theorem headersCounted_congr (h : vs.AgreesOn ["headers", "headers_len"] ws) :
    headersCounted vs = headersCounted ws := by
  unfold headersCounted Values.number
  rw [Values.text_eq_readAs, Values.text_eq_readAs, Values.readAs_congr (h "headers" (by simp)),
    Values.readAs_congr (h "headers_len" (by simp))]

theorem headersCounted_eq_ok_iff :
    headersCounted vs = .ok true ↔ ∃ headers n, vs.Says some "headers" headers ∧
      vs.Says parseNumber? "headers_len" n ∧
      n.same (.ofNat (Text.unquote headers).length) = true := by
  simp only [headersCounted, Values.number, Values.text_eq_readAs, bind_eq_ok_iff,
    pure_eq_ok_iff, Values.readAs_eq_ok_iff]
  constructor
  · rintro ⟨headers, hheaders, n, hn, hsame⟩
    exact ⟨headers, n, hheaders, hn, hsame⟩
  · rintro ⟨headers, n, hheaders, hn, hsame⟩
    exact ⟨headers, hheaders, n, hn, hsame⟩

theorem missesOnly_headersCounted :
    Rule.MissesOnly ⟨Tag.headerLengthMismatch, headersCounted⟩ successFields := by
  intro vs n h
  change headersCounted vs = _ at h
  simp only [headersCounted, Values.number, Values.text_eq_readAs, bind_eq_error_iff,
    Values.readAs_eq_missing_iff] at h
  rcases h with ⟨rfl, habsent⟩ | ⟨headers, -, ⟨rfl, habsent⟩ | ⟨n, -, h⟩⟩
  · exact ⟨by decide, habsent⟩
  · exact ⟨by decide, habsent⟩
  · cases h

theorem missesOnly_bodyCounted :
    Rule.MissesOnly ⟨Tag.zeroLengthBody, bodyCounted⟩ successFields :=
  Rule.missesOnly_one (by decide)

theorem missesOnly_bodyThere : Rule.MissesOnly ⟨Tag.zeroLengthBody, bodyThere⟩ successFields := by
  intro vs n h
  change bodyThere vs = _ at h
  unfold bodyThere at h
  split at h
  · cases h
  · exact missesOnly_bodyCounted h

theorem missesOnly_rules : ∀ r ∈ checklist.rules, r.MissesOnly checklist.required := by
  simp only [rules_eq, List.forall_mem_cons]
  exact ⟨Rule.missesOnly_one (by decide), Rule.missesOnly_one (by decide), by simp⟩

theorem missesOnly_successRules :
    ∀ r ∈ successChecklist.rules, r.MissesOnly successChecklist.required := by
  simp only [successChecklist, List.forall_mem_cons]
  exact ⟨missesOnly_bodyThere, missesOnly_headersCounted, Rule.missesOnly_one (by decide), by simp⟩

/-- The tags of rules for fetches, and the names of the values that each rule reads. -/
def inputs : List (String × List String) := [
  (Tag.nonHttpUrl, ["url"]),
  (Tag.httpCodeInvalid, ["code"])]

/-- The tags of rules for fetches that succeeded, and the names of the values that each rule
reads. The two rules about the page stand here as one. -/
def successInputs : List (String × List String) := [
  (Tag.zeroLengthBody, ["body", "body_len"]),
  (Tag.headerLengthMismatch, ["headers", "headers_len"]),
  (Tag.fetchTimeInvalid, ["time_ms"])]

theorem readsListed : Rule.ReadsListed checklist.rules inputs := by
  rw [rules_eq]
  exact .cons ⟨rfl, Rule.readsOnly_one⟩ <| .cons ⟨rfl, Rule.readsOnly_one⟩ .nil

theorem successReadsListed : Rule.ReadsListed successChecklist.rules successInputs :=
  .cons ⟨rfl, bodyThere_congr⟩ <| .cons ⟨rfl, headersCounted_congr⟩ <|
    .cons ⟨rfl, Rule.readsOnly_one⟩ .nil

/-! ## Fetches in order

`Http.InOrder` says of a fetch what its rules ask for, without a word of rules. -/

/-- The status code says that the fetch succeeded. -/
def Succeeded (vs : Values) : Prop := ∃ c, vs.Says parseNumber? "code" c ∧ c.same 200 = true

/-- There are a page and headers that fit what was counted, and a time within its bounds. -/
structure Complete (vs : Values) : Prop where
  body : ∃ body, vs.find? "body" = some body ∧ Text.unquote body ≠ ""
  length : ∃ n, vs.Says parseNumber? "body_len" n ∧ 0 < n
  headers : ∃ headers n, vs.find? "headers" = some headers ∧
    vs.Says parseNumber? "headers_len" n ∧ n.same (.ofNat (Text.unquote headers).length) = true
  time : ∃ ms, vs.Says parseNumber? "time_ms" ms ∧ 0 ≤ ms ∧ ms ≤ 100000

/-- There is a page without a character, or a length of it that is no number above zero. -/
def EmptyBody (vs : Values) : Prop :=
  (∃ body, vs.find? "body" = some body ∧ Text.unquote body = "") ∨
    ∃ length, vs.find? "body_len" = some length ∧ ¬∃ n, parseNumber? length = some n ∧ 0 < n

/-- A fetch has an address that begins with `http` and a code that is one of a status, and is
complete if it succeeded. -/
structure InOrder (parameters values : Values) : Prop where
  url : ∃ url, urlOf parameters values = some url ∧ "http".toList <+: (Text.unquote url).toList
  code : ∃ c, values.Says parseNumber? "code" c ∧ 100 ≤ c ∧ c < 600
  complete : Succeeded values → Complete values

/-- **A fetch that succeeded gets no tag** if it is complete. -/
theorem successErrors_eq_nil_iff : (successChecklist.score vs).errors = [] ↔ Complete vs := by
  rw [Checklist.errors_eq_nil_iff missesOnly_successRules]
  -- What each rule of the list asks for, in the words of the values.
  simp only [successChecklist, successFields, List.forall_mem_cons, bodyThere_eq_ok_iff,
    headersCounted_eq_ok_iff, bodyNotEmpty_eq, bodyCounted, Values.number, Values.says_some_iff,
    Rule.map_readAs_eq_ok_iff, between_iff, ← Bool.not_eq_true, Rule.raises_map_readAs_iff,
    decide_eq_true_eq]
  constructor
  · rintro ⟨⟨hbody, -⟩, ⟨hempty, hlength⟩, hheaders, htime, -⟩
    obtain ⟨body, hfound⟩ := Option.isSome_iff_exists.1 hbody
    refine ⟨⟨body, hfound, ?_⟩, hlength, hheaders, htime⟩
    intro hnone
    apply hempty
    refine ⟨body, hfound, ?_⟩
    rintro ⟨_, ⟨⟩, hne⟩
    exact hne hnone
  · rintro ⟨⟨body, hfound, hne⟩, ⟨n, hn, hpos⟩, ⟨headers, m, hheaders, hm, hsame⟩, ms, hms, hle⟩
    have hthere : vs.contains "body" = true := Option.isSome_iff_exists.2 ⟨body, hfound⟩
    have htext : vs.contains "headers" = true := Option.isSome_iff_exists.2 ⟨headers, hheaders⟩
    refine ⟨⟨hthere, hn.contains, htext, hm.contains, hms.contains, by simp⟩,
      ⟨?_, n, hn, hpos⟩, ⟨headers, m, hheaders, hm, hsame⟩, ⟨ms, hms, hle⟩, by simp⟩
    rintro ⟨value, hvalue, hnot⟩
    cases hfound.symm.trans hvalue
    exact hnot ⟨body, rfl, hne⟩

/-- **A fetch gets no tag** of the rules for every fetch if its address and its code are right. -/
theorem errors_eq_nil_iff : (checklist.score vs).errors = [] ↔
    (∃ url, vs.find? "url" = some url ∧ "http".toList <+: (Text.unquote url).toList) ∧
      ∃ c, vs.Says parseNumber? "code" c ∧ 100 ≤ c ∧ c < 600 := by
  rw [Checklist.errors_eq_nil_iff missesOnly_rules]
  simp only [rules_eq, show checklist.required = ["code", "url"] from rfl, List.forall_mem_cons,
    Values.says_some_iff, Rule.map_readAs_eq_ok_iff, String.startsWith_string_iff,
    Bool.and_eq_true, decide_eq_true_eq]
  constructor
  · rintro ⟨-, hurl, hcode, -⟩
    exact ⟨hurl, hcode⟩
  · rintro ⟨⟨url, hurl, hhttp⟩, c, hc, hstatus⟩
    have hthere : vs.contains "url" = true := Option.isSome_iff_exists.2 ⟨url, hurl⟩
    exact ⟨⟨hc.contains, hthere, by simp⟩, ⟨url, hurl, hhttp⟩, ⟨c, hc, hstatus⟩, by simp⟩

/-! ## What is judged by which values

A value decides the tags of the rules that read it. The status code decides as well whether the
second checklist is gone through at all. -/

theorem find?_working_congr {n : String} (h : vs.find? n = ws.find? n) :
    (working parameters vs).find? n = (working parameters ws).find? n := by
  rw [find?_working, find?_working]
  split
  · next hurl =>
    unfold urlOf
    rw [← hurl, h]
  · exact h

theorem agreesOn_working_self {names : List String} (h : "url" ∉ names) :
    (working parameters values).AgreesOn names values := by
  intro n hn
  rw [find?_working, if_neg]
  rintro rfl
  exact h hn

theorem Succeeded.congr (h : vs.find? "code" = ws.find? "code") (hs : Succeeded vs) :
    Succeeded ws := by
  obtain ⟨c, hc, hsame⟩ := hs
  exact ⟨c, hc.congr h, hsame⟩

theorem Complete.congr (h : vs.AgreesOn successFields ws) (hc : Complete vs) : Complete ws := by
  obtain ⟨⟨body, hbody, hne⟩, ⟨n, hn, hpos⟩, ⟨headers, m, hheaders, hm, hsame⟩, ms, hms, hle⟩ := hc
  exact ⟨⟨body, h "body" (by decide) ▸ hbody, hne⟩, ⟨n, hn.congr (h _ (by decide)), hpos⟩,
    ⟨headers, m, h "headers" (by decide) ▸ hheaders, hm.congr (h _ (by decide)), hsame⟩,
    ms, hms.congr (h _ (by decide)), hle⟩

theorem EmptyBody.congr (h : vs.AgreesOn ["body", "body_len"] ws) (he : EmptyBody vs) :
    EmptyBody ws := by
  unfold EmptyBody at *
  rwa [← h "body" (by simp), ← h "body_len" (by simp)]

theorem succeeded_working_iff (parameters values : Values) :
    succeeded (working parameters values) = true ↔ Succeeded values := by
  have hworking : (working parameters values).AgreesOn ["code"] values :=
    agreesOn_working_self (by decide)
  have hcode := hworking "code" List.mem_cons_self
  rw [succeeded_iff]
  exact ⟨Succeeded.congr hcode, Succeeded.congr hcode.symm⟩

theorem complete_working_iff (parameters values : Values) :
    Complete (working parameters values) ↔ Complete values := by
  have hworking : (working parameters values).AgreesOn successFields values :=
    agreesOn_working_self (by decide)
  exact ⟨Complete.congr hworking, Complete.congr hworking.symm⟩

theorem emptyBody_working_iff (parameters values : Values) :
    EmptyBody (working parameters values) ↔ EmptyBody values := by
  have hworking : (working parameters values).AgreesOn ["body", "body_len"] values :=
    agreesOn_working_self (by decide)
  exact ⟨EmptyBody.congr hworking, EmptyBody.congr hworking.symm⟩

/-! ## Judgements

The tag of an empty page is shared by two rules, and is raised once. -/

theorem mem_errors_iff {e : String × List String} (he : e ∈ inputs) :
    e.1 ∈ (score vs).errors ↔ e.1 ∈ (checklist.score vs).errors := by
  have hother : ∀ e ∈ inputs, e.1 ∉ successChecklist.tags := by decide
  rw [errors_score, List.mem_append]
  constructor
  · rintro (hmem | hmem)
    · exact hmem
    · split at hmem
      · exact absurd ((successChecklist.errors_sublist vs).subset hmem) (hother e he)
      · exact absurd hmem List.not_mem_nil
  · exact .inl

theorem mem_errors_iff_of_success {e : String × List String} (he : e ∈ successInputs) :
    e.1 ∈ (score vs).errors ↔ succeeded vs = true ∧ e.1 ∈ (successChecklist.score vs).errors := by
  have hother : ∀ e ∈ successInputs, e.1 ∉ checklist.tags := by decide
  rw [errors_score, List.mem_append]
  constructor
  · rintro (hmem | hmem)
    · exact absurd ((checklist.errors_sublist vs).subset hmem) (hother e he)
    · split at hmem
      · next hsucceeded => exact ⟨hsucceeded, hmem⟩
      · exact absurd hmem List.not_mem_nil
  · rintro ⟨hsucceeded, hmem⟩
    rw [if_pos hsucceeded]
    exact .inr hmem

theorem succeeded_congr (h : vs.find? "code" = ws.find? "code") : succeeded vs = succeeded ws := by
  rw [Bool.eq_iff_iff, succeeded_iff, succeeded_iff]
  exact ⟨Succeeded.congr h, Succeeded.congr h.symm⟩

/-- **Each rule stands for itself**, once the code has said which rules there are. -/
theorem mem_errors_congr (hcode : vs.find? "code" = ws.find? "code") {e : String × List String}
    (he : e ∈ inputs ++ successInputs) (h : vs.AgreesOn e.2 ws) :
    e.1 ∈ (score vs).errors ↔ e.1 ∈ (score ws).errors := by
  obtain ⟨hl, hsuccess, -⟩ := List.nodup_append.1 nodup_tags
  rcases List.mem_append.1 he with he | he
  · obtain ⟨r, hr, htag, hreads⟩ := readsListed.exists_of_mem he
    rw [mem_errors_iff he, mem_errors_iff he, ← htag]
    exact Checklist.mem_errors_congr hl hr hreads h
  · obtain ⟨r, hr, htag, hreads⟩ := successReadsListed.exists_of_mem he
    rw [mem_errors_iff_of_success he, mem_errors_iff_of_success he, ← htag, succeeded_congr hcode]
    exact and_congr_right fun _ => Checklist.mem_errors_congr hsuccess hr hreads h

/-- The two rules about the page raise their tag if one of them fails. -/
theorem raises_bodyThere_iff : FieldFault.raises (bodyThere vs) = true ↔
    FieldFault.raises (bodyNotEmpty vs) = true ∨ FieldFault.raises (bodyCounted vs) = true := by
  unfold bodyThere
  split
  · next h =>
    rw [h]
    exact iff_of_true rfl (.inl rfl)
  · next h => simp [h]

theorem zeroLengthBody_mem_iff :
    Tag.zeroLengthBody ∈ (score vs).errors ↔ Succeeded vs ∧ EmptyBody vs := by
  have hlisted : (Tag.zeroLengthBody, ["body", "body_len"]) ∈ successInputs := List.mem_cons_self
  have hrule : ⟨Tag.zeroLengthBody, bodyThere⟩ ∈ successChecklist.rules := List.mem_cons_self
  rw [mem_errors_iff_of_success hlisted, succeeded_iff]
  apply and_congr_right
  intro _
  rw [Checklist.mem_errors_iff (List.nodup_append.1 nodup_tags).2.1 hrule, Rule.fails,
    raises_bodyThere_iff, bodyNotEmpty_eq, bodyCounted, Values.number, Rule.raises_map_readAs_iff,
    Rule.raises_map_readAs_iff]
  simp [EmptyBody]

theorem score_errors_eq_nil_iff : (score vs).errors = [] ↔
    (checklist.score vs).errors = [] ∧ (succeeded vs = true → Complete vs) := by
  rw [errors_score, List.append_eq_nil_iff, ← successErrors_eq_nil_iff]
  split
  · next hsucceeded => simp [hsucceeded]
  · next hfailed => simp [hfailed]

/-- **A fetch gets no tag** if it is in order, and only then. -/
theorem errors_working_eq_nil_iff :
    (score (working parameters values)).errors = [] ↔ InOrder parameters values := by
  have hcode : (working parameters values).find? "code" = values.find? "code" := by
    rw [find?_working, if_neg (by decide)]
  rw [score_errors_eq_nil_iff, errors_eq_nil_iff, succeeded_working_iff, complete_working_iff]
  simp only [find?_working, if_pos, Values.Says, hcode]
  constructor
  · rintro ⟨⟨hurl, hstatus⟩, hdone⟩
    exact ⟨hurl, hstatus, hdone⟩
  · rintro ⟨hurl, hstatus, hdone⟩
    exact ⟨⟨hurl, hstatus⟩, hdone⟩

/-- **Fields of a fetch that succeeded are not read** unless the fetch succeeded. -/
theorem score_congr_of_not_succeeded (hfailed : succeeded vs = false)
    (h : vs.AgreesOff successFields ws) : score vs = score ws := by
  have hcode : vs.find? "code" = ws.find? "code" := h "code" (by decide)
  have hurl : vs.find? "url" = ws.find? "url" := h "url" (by decide)
  have hfailed' : succeeded ws = false := (succeeded_congr hcode).symm.trans hfailed
  unfold score
  rw [hfailed, hfailed']
  apply Checklist.score_congr
  · rintro n hn
    exact h n (by revert n; decide)
  · simp only [rules_eq, List.forall_mem_cons]
    exact ⟨by rw [Values.readAs_congr hurl], by rw [Values.readAs_congr hcode], by simp⟩

/-- How a fetch is judged, given what was asked for. -/
structure Judged (parameters : Values) (score : Values → Outcome) (vs : Values) : Prop where
  valid_iff : (score vs).isValid = true ↔ (score vs).errors = []
  inOrder_iff : (score vs).errors = [] ↔ InOrder parameters vs
  nodup : (score vs).errors.Nodup
  /-- An empty page is reported whether it shows in its text or in its length. -/
  emptyBody_iff : Tag.zeroLengthBody ∈ (score vs).errors ↔ Succeeded vs ∧ EmptyBody vs
  /-- The tag of a rule does not depend on a field that the rule does not read. -/
  apart : ∀ field ∈ successFields, ∀ ws : Values, vs.AgreesOff [field] ws →
    ∀ e ∈ inputs ++ successInputs, field ∉ e.2 →
      (e.1 ∈ (score vs).errors ↔ e.1 ∈ (score ws).errors)
  /-- Nothing depends on the fields of a fetch that succeeded if the fetch did not. -/
  unread : ¬Succeeded vs → ∀ ws : Values, vs.AgreesOff successFields ws → score vs = score ws

end Http

/-- **Fetches are judged** by rules of their own, and those that succeeded by more. -/
theorem Validator.judges_fetches (parameters values : Values) :
    Http.Judged parameters (fun vs => (http (Http.working parameters vs)).score) values where
  valid_iff := Outcome.isValid_iff _
  inOrder_iff := Http.errors_working_eq_nil_iff
  nodup := (Http.errors_sublist _).nodup Http.nodup_tags
  emptyBody_iff := by
    rw [← Http.succeeded_working_iff parameters, ← Http.emptyBody_working_iff parameters,
      Http.succeeded_iff]
    exact Http.zeroLengthBody_mem_iff
  apart field hfield ws h e he hapart := by
    -- The status code decides which rules are asked, and it is the same for both.
    have hcode : "code" ≠ field := by
      rintro rfl
      revert hfield
      decide
    apply Http.mem_errors_congr (Http.find?_working_congr (h "code" (by simpa using hcode))) he
    intro n hn
    apply Http.find?_working_congr (h n _)
    rintro hmem
    rw [List.mem_singleton.1 hmem] at hn
    exact hapart hn
  unread hfailed ws h := by
    apply Http.score_congr_of_not_succeeded
    · rwa [← Bool.not_eq_true, Http.succeeded_working_iff]
    · exact fun n hn => Http.find?_working_congr (h n hn)

/-- A page that is empty by its text and by its length is reported once. -/
example : ((Validator.http (Http.working (OrderedMap.ofList [("url", "http://example.org")])
    (OrderedMap.ofList [("code", "200"), ("body", "\"\""), ("body_len", "0"), ("headers", "ok"),
      ("headers_len", "2")]))).score).errors = ["missing_field_time_ms", Tag.zeroLengthBody] := by
  decide +kernel

end NetAudit
