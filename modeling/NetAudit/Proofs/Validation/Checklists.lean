import Mathlib.Data.List.Forall2
import Mathlib.Data.List.Nodup
import NetAudit.Validation.Ping

/-!
# What a checklist finds

A checklist raises the tags of the required fields that are missing, and after them the tags of the
rules that fail, both in the order in which they are listed (`Checklist.errors_score`). If its tags
are distinct, then none is raised twice, and the tag of a rule is raised for what that rule reads
and for nothing else (`Checklist.mem_errors_congr`).
-/

namespace NetAudit

/-! ## Values that are read

A value is read by a parser under its name. `Values.Says` says that it is there and what the parser
makes of it. -/

namespace Values

variable {α : Type} {parse : String → Option α} {vs ws : Values} {name n : String}

/-- There is a value under a name, and it is read as `a`. -/
def Says (parse : String → Option α) (vs : Values) (name : String) (a : α) : Prop :=
  ∃ value, vs.find? name = some value ∧ parse value = some a

/-- Under these names there are the same values. -/
def AgreesOn (names : List String) (vs ws : Values) : Prop :=
  ∀ n ∈ names, vs.find? n = ws.find? n

/-- Under all other names there are the same values. -/
def AgreesOff (names : List String) (vs ws : Values) : Prop :=
  ∀ n, n ∉ names → vs.find? n = ws.find? n

theorem AgreesOn.symm {names : List String} (h : vs.AgreesOn names ws) : ws.AgreesOn names vs :=
  fun n hn => (h n hn).symm

theorem readAs_eq (parse : String → Option α) (vs : Values) (name : String) :
    readAs parse vs name = match vs.find? name with
      | none => .error (.missing name)
      | some value => match parse value with
        | some a => .ok a
        | none => .error (.malformed name) := by
  unfold readAs text
  cases vs.find? name with
  | none => rfl
  | some value => rfl

theorem readAs_eq_ok_iff {a : α} : readAs parse vs name = .ok a ↔ vs.Says parse name a := by
  rw [readAs_eq]
  unfold Says
  cases vs.find? name with
  | none => simp
  | some value => cases h : parse value <;> simp [h]

/-- A text is read as it stands. -/
theorem text_eq_readAs (vs : Values) (name : String) : vs.text name = readAs some vs name := by
  unfold readAs
  cases vs.text name with
  | ok value => rfl
  | error e => rfl

theorem Says.eq {a b : α} (ha : vs.Says parse name a) (hb : vs.Says parse name b) : a = b := by
  obtain ⟨value, hvalue, ha⟩ := ha
  obtain ⟨value', hvalue', hb⟩ := hb
  cases hvalue.symm.trans hvalue'
  exact Option.some.inj (ha.symm.trans hb)

theorem Says.contains {a : α} (h : vs.Says parse name a) : vs.contains name = true := by
  obtain ⟨value, hvalue, -⟩ := h
  simp [OrderedMap.contains, hvalue]

theorem says_some_iff {value : String} :
    vs.Says some name value ↔ vs.find? name = some value := by
  simp [Says]

theorem readAs_eq_missing_iff :
    readAs parse vs name = .error (.missing n) ↔ name = n ∧ vs.contains name = false := by
  rw [readAs_eq]
  unfold OrderedMap.contains
  cases vs.find? name with
  | none => simp
  | some value => cases h : parse value <;> simp [h]

theorem readAs_congr (h : vs.find? name = ws.find? name) :
    readAs parse vs name = readAs parse ws name := by
  rw [readAs_eq, readAs_eq, h]

end Values

theorem Values.Says.congr {α : Type} {parse : String → Option α} {vs ws : Values} {name : String}
    {a : α} (h : vs.find? name = ws.find? name) (ha : vs.Says parse name a) :
    ws.Says parse name a := by
  unfold Values.Says at *
  rwa [← h]

theorem between_iff {low high x : Number.Binary64} :
    between low high x = true ↔ low ≤ x ∧ x ≤ high := by
  simp [between]

/-! ## Rules

A rule raises its tag if its value is malformed or does not hold. A value that is missing raises no
tag of a rule, as it has one of its own. -/

/-- The answer of a rule raises its tag: the rule does not hold, or it cannot read a value. -/
def FieldFault.raises : Except FieldFault Bool → Bool
  | .ok holds => !holds
  | .error (.malformed _) => true
  | .error (.missing _) => false

namespace Rule

/-- The rule raises its tag. -/
def fails (r : Rule) (vs : Values) : Bool := FieldFault.raises (r.holds vs)

/-- The tags of the rules that fail. -/
def raised (rules : List Rule) (vs : Values) : List String :=
  (rules.filter (·.fails vs)).map Rule.tag

theorem raised_nil (vs : Values) : raised [] vs = [] := rfl

theorem raised_cons (r : Rule) (rules : List Rule) (vs : Values) :
    raised (r :: rules) vs = (if r.fails vs then [r.tag] else []) ++ raised rules vs := by
  unfold raised
  rw [List.filter_cons]
  cases r.fails vs <;> rfl

/-- All that the rule reads is what stands under these names. -/
def ReadsOnly (r : Rule) (names : List String) : Prop :=
  ∀ {vs ws : Values}, vs.AgreesOn names ws → r.holds vs = r.holds ws

/-- Where the rule misses a value, it is that of one of these names. -/
def MissesOnly (r : Rule) (names : List String) : Prop :=
  ∀ {vs : Values} {n : String}, r.holds vs = .error (.missing n) → n ∈ names ∧ vs.contains n = false

section OneValue

variable {α : Type} {parse : String → Option α} {f : α → Bool} {tag name : String}

/-- A rule on one value holds if the value is read as something that satisfies it. -/
theorem map_readAs_eq_ok_iff {vs : Values} :
    (Values.readAs parse vs name).map f = .ok true ↔ ∃ a, vs.Says parse name a ∧ f a = true := by
  simp only [← Values.readAs_eq_ok_iff]
  cases Values.readAs parse vs name with
  | ok a => simp [Except.map]
  | error e => simp [Except.map]

/-- A rule on one value raises its tag if the value is there and is nothing that satisfies it. -/
theorem raises_map_readAs_iff {vs : Values} :
    FieldFault.raises ((Values.readAs parse vs name).map f) = true ↔
      ∃ value, vs.find? name = some value ∧ ¬∃ a, parse value = some a ∧ f a = true := by
  rw [Values.readAs_eq]
  cases vs.find? name with
  | none => simp [Except.map, FieldFault.raises]
  | some value => cases h : parse value <;> simp [Except.map, FieldFault.raises, h]

theorem readsOnly_one : ReadsOnly ⟨tag, fun vs => (Values.readAs parse vs name).map f⟩ [name] := by
  intro vs ws h
  show (Values.readAs parse vs name).map f = (Values.readAs parse ws name).map f
  rw [Values.readAs_congr (h name List.mem_cons_self)]

theorem missesOnly_one {names : List String} (hname : name ∈ names) :
    MissesOnly ⟨tag, fun vs => (Values.readAs parse vs name).map f⟩ names := by
  intro vs n h
  change (Values.readAs parse vs name).map f = _ at h
  cases hread : Values.readAs parse vs name with
  | ok a =>
      rw [hread] at h
      cases h
  | error e =>
      rw [hread] at h
      cases h
      obtain ⟨rfl, habsent⟩ := Values.readAs_eq_missing_iff.1 hread
      exact ⟨hname, habsent⟩

end OneValue

/-- The tags of rules, with names of values that are all that each rule reads. -/
def ReadsListed (rules : List Rule) (inputs : List (String × List String)) : Prop :=
  List.Forall₂ (fun r e => r.tag = e.1 ∧ r.ReadsOnly e.2) rules inputs

section Listed

variable {rules : List Rule} {inputs : List (String × List String)}

theorem ReadsListed.map_tag (h : ReadsListed rules inputs) :
    rules.map Rule.tag = inputs.map (·.1) := by
  induction h with
  | nil => rfl
  | cons hr _ ih => rw [List.map_cons, List.map_cons, hr.1, ih]

theorem ReadsListed.exists_of_mem (h : ReadsListed rules inputs) {e : String × List String}
    (he : e ∈ inputs) : ∃ r ∈ rules, r.tag = e.1 ∧ r.ReadsOnly e.2 := by
  induction h with
  | nil => exact absurd he List.not_mem_nil
  | @cons r d _ _ hr _ ih =>
      rcases List.mem_cons.1 he with rfl | he
      · exact ⟨r, List.mem_cons_self, hr⟩
      · obtain ⟨s, hs, htag⟩ := ih he
        exact ⟨s, List.mem_cons_of_mem _ hs, htag⟩

end Listed

end Rule

namespace Outcome

variable (o : Outcome) (vs : Values)

/-- The tags of the fields that are not there. -/
def missingTags (vs : Values) (names : List String) : List String :=
  (names.filter fun n => (vs.find? n).isNone).map missingFieldTag

theorem errors_check (tag : String) (answer : Except FieldFault Bool) :
    (o.check tag answer).errors = o.errors ++ if FieldFault.raises answer then [tag] else [] := by
  unfold check
  split <;> simp [FieldFault.raises, fail, remark]

theorem errors_require (names : List String) :
    (o.require vs names).errors = o.errors ++ missingTags vs names := by
  unfold require missingTags
  induction names generalizing o with
  | nil => simp
  | cons n names ih =>
      rw [List.foldl_cons, ih, List.filter_cons]
      cases hfound : vs.find? n with
      | none => simp [OrderedMap.contains, hfound, fail]
      | some value => simp [OrderedMap.contains, hfound]

/-- Of the values that are required it matters only whether they are there. -/
theorem require_congr {vs ws : Values} {names : List String}
    (h : ∀ n ∈ names, vs.contains n = ws.contains n) : o.require vs names = o.require ws names := by
  apply List.foldl_ext
  intro o n hn
  rw [h n hn]

theorem missingTags_eq_nil_iff {names : List String} :
    missingTags vs names = [] ↔ ∀ n ∈ names, vs.contains n = true := by
  unfold missingTags OrderedMap.contains
  simp [List.filter_eq_nil_iff, Option.isSome_iff_ne_none]

end Outcome

/-! ## Checklists

The errors of a checklist are a part of its tags, in the order of these. -/

namespace Checklist

/-- The tags that a checklist can raise, in their order. -/
def tags (l : Checklist) : List String := l.required.map missingFieldTag ++ l.rules.map Rule.tag

variable {l : Checklist} {vs ws : Values}

/-- **A checklist raises** the tags of missing fields, then those of rules that fail. -/
theorem errors_score (l : Checklist) (vs : Values) :
    (l.score vs).errors = Outcome.missingTags vs l.required ++ Rule.raised l.rules vs := by
  have hrules : ∀ (rules : List Rule) (o : Outcome),
      (rules.foldl (fun o r => o.check r.tag (r.holds vs)) o).errors =
        o.errors ++ Rule.raised rules vs := by
    intro rules
    induction rules with
    | nil => simp [Rule.raised_nil]
    | cons r rules ih =>
        intro o
        rw [List.foldl_cons, ih, Outcome.errors_check, Rule.raised_cons, List.append_assoc]
        rfl
  rw [score, hrules, Outcome.errors_require]
  rfl

theorem errors_sublist (l : Checklist) (vs : Values) : (l.score vs).errors.Sublist l.tags := by
  rw [errors_score]
  exact (List.filter_sublist.map _).append (List.filter_sublist.map _)

/-- **The tag of a rule** is raised if the rule fails, and only then. -/
theorem mem_errors_iff (hl : l.tags.Nodup) {r : Rule} (hr : r ∈ l.rules) :
    r.tag ∈ (l.score vs).errors ↔ r.fails vs = true := by
  obtain ⟨-, hrules, hdisjoint⟩ := List.nodup_append.1 hl
  rw [errors_score, Rule.raised, List.mem_append, List.mem_map]
  constructor
  · rintro (hmissing | ⟨s, hs, htag⟩)
    · have hmem : r.tag ∈ l.required.map missingFieldTag :=
        (List.filter_sublist.map missingFieldTag).subset hmissing
      exact absurd rfl (hdisjoint _ hmem _ (List.mem_map_of_mem hr))
    · obtain ⟨hmem, hfails⟩ := List.mem_filter.1 hs
      rwa [← List.inj_on_of_nodup_map hrules hmem hr htag]
  · intro hfails
    exact .inr ⟨r, List.mem_filter.2 ⟨hr, hfails⟩, rfl⟩

/-- **A rule stands for itself**: whatever it does not read may change. -/
theorem mem_errors_congr (hl : l.tags.Nodup) {r : Rule} (hr : r ∈ l.rules) {names : List String}
    (hreads : r.ReadsOnly names) (h : vs.AgreesOn names ws) :
    r.tag ∈ (l.score vs).errors ↔ r.tag ∈ (l.score ws).errors := by
  rw [mem_errors_iff hl hr, mem_errors_iff hl hr, Rule.fails, Rule.fails, hreads h]

/-- Values are scored alike where the same of what is required is there, and rules answer alike. -/
theorem score_eq (hrequired : ∀ n ∈ l.required, vs.contains n = ws.contains n)
    (hrules : ∀ r ∈ l.rules, r.holds vs = r.holds ws) : l.score vs = l.score ws := by
  unfold score
  rw [Outcome.require_congr _ hrequired]
  apply List.foldl_ext
  intro o r hr
  rw [hrules r hr]

/-- Values that agree on all that is required and on all that rules read are scored alike. -/
theorem score_congr (hrequired : vs.AgreesOn l.required ws)
    (hrules : ∀ r ∈ l.rules, r.holds vs = r.holds ws) : l.score vs = l.score ws := by
  apply score_eq _ hrules
  intro n hn
  unfold OrderedMap.contains
  rw [hrequired n hn]

/-- **No tag is raised** if all fields are there and all rules hold. -/
theorem errors_eq_nil_iff (hl : ∀ r ∈ l.rules, r.MissesOnly l.required) :
    (l.score vs).errors = [] ↔
      (∀ n ∈ l.required, vs.contains n = true) ∧ ∀ r ∈ l.rules, r.holds vs = .ok true := by
  rw [errors_score, Rule.raised, List.append_eq_nil_iff, Outcome.missingTags_eq_nil_iff,
    List.map_eq_nil_iff, List.filter_eq_nil_iff]
  apply and_congr_right
  intro hpresent
  apply forall₂_congr
  intro r hr
  unfold Rule.fails
  cases hanswer : r.holds vs with
  | ok holds => cases holds <;> simp [FieldFault.raises]
  | error e =>
      cases e with
      | malformed n => simp [FieldFault.raises]
      | missing n =>
          obtain ⟨hn, habsent⟩ := hl r hr hanswer
          rw [hpresent n hn] at habsent
          cases habsent

end Checklist

/-! ## Judgements

`Judges` collects what a reader of the rules wants to know: when nothing is raised, that nothing is
raised twice, and by which values each tag is decided. -/

/-- How values are judged by fields that are required and by rules, of which `inputs` lists the tags
with the names of all that each rule reads. -/
structure Judges (required : List String) (inputs : List (String × List String))
    (inOrder : Values → Prop) (score : Values → Outcome) (vs : Values) : Prop where
  valid_iff : (score vs).isValid = true ↔ (score vs).errors = []
  inOrder_iff : (score vs).errors = [] ↔ inOrder vs
  /-- The tags of missing fields come first, then those of rules, both in their order. -/
  listed : ∃ raised, raised.Sublist (inputs.map (·.1)) ∧
    (score vs).errors =
      (required.filter fun n => (vs.find? n).isNone).map missingFieldTag ++ raised
  nodup : (score vs).errors.Nodup
  /-- The tag of a rule depends on nothing but what the rule reads. -/
  apart : ∀ e ∈ inputs, ∀ ws : Values, vs.AgreesOn e.2 ws →
    (e.1 ∈ (score vs).errors ↔ e.1 ∈ (score ws).errors)

theorem Outcome.isValid_iff (o : Outcome) : o.isValid = true ↔ o.errors = [] := by
  rw [o.isValid_eq, List.isEmpty_iff]

/-- **A checklist judges values** by its rules, if its tags are distinct. -/
theorem Checklist.judges {l : Checklist} {inputs : List (String × List String)}
    {inOrder : Values → Prop} (hl : l.tags.Nodup)
    (hreads : Rule.ReadsListed l.rules inputs)
    (hmisses : ∀ r ∈ l.rules, r.MissesOnly l.required)
    (horder : ∀ vs, inOrder vs ↔
      (∀ n ∈ l.required, vs.contains n = true) ∧ ∀ r ∈ l.rules, r.holds vs = .ok true)
    (vs : Values) : Judges l.required inputs inOrder l.score vs where
  valid_iff := (l.score vs).isValid_iff
  inOrder_iff := (errors_eq_nil_iff hmisses).trans (horder vs).symm
  listed := by
    rw [← hreads.map_tag]
    exact ⟨_, List.filter_sublist.map _, errors_score l vs⟩
  nodup := (errors_sublist l vs).nodup hl
  apart e he ws h := by
    obtain ⟨r, hr, htag, hreads⟩ := hreads.exists_of_mem he
    rw [← htag]
    exact mem_errors_congr hl hr hreads h

end NetAudit
