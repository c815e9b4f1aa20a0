import NetAudit.Proofs.Validation.Fetches
import NetAudit.Proofs.Validation.Pings

/-!
# Rules that miss a value

A missing value has a tag of its own, and a rule that meets it says nothing. A rule that reads
several values reads them in a row, though, and the first that it cannot read decides: if it meets
one that is no number before the one that is missing, it raises its tag all the same
(`Values.raises_numbers_iff`). The rule about headers reads a text first, which is always a text, so
it never does.
-/

namespace NetAudit

open Number (Binary64)

/-! ## Values that are read in a row

The first value that cannot be read decides. It is missing, and then nothing is raised; or it is
malformed, and then the tag of the rule is. -/

namespace Values

variable {vs : Values} {names : List String} {name : String}

/-- The numbers under some names, read in this order. -/
def numbers (vs : Values) (names : List String) : Except FieldFault (List Binary64) :=
  names.mapM vs.number

/-- Going through the names, one meets a value that is no number before a value that is missing. -/
def MeetsMalformed (vs : Values) (names : List String) : Prop :=
  ∃ name ∈ names.takeWhile vs.contains,
    ∃ value, vs.find? name = some value ∧ parseNumber? value = none

theorem numbers_cons (vs : Values) (name : String) (names : List String) :
    vs.numbers (name :: names) = do
      let x ← vs.number name
      let xs ← vs.numbers names
      return x :: xs :=
  List.mapM_cons

theorem meetsMalformed_cons : vs.MeetsMalformed (name :: names) ↔
    ∃ value, vs.find? name = some value ∧
      (parseNumber? value = none ∨ vs.MeetsMalformed names) := by
  unfold MeetsMalformed
  rw [List.takeWhile_cons, OrderedMap.contains]
  cases hvalue : vs.find? name with
  | none => simp
  | some value => simp [hvalue]

/-- **The first value that cannot be read decides** whether a rule raises its tag, if one is
missing. -/
theorem raises_numbers_iff (hmissing : ∃ name ∈ names, vs.contains name = false)
    (f : List Binary64 → Bool) :
    FieldFault.raises ((vs.numbers names).map f) = true ↔ vs.MeetsMalformed names := by
  induction names generalizing f with
  | nil => simp at hmissing
  | cons name names ih =>
      rw [meetsMalformed_cons, numbers_cons, number, readAs_eq]
      cases hvalue : vs.find? name with
      | none => simp [bind, Except.bind, Except.map, FieldFault.raises]
      | some value =>
          cases hnumber : parseNumber? value with
          | none => simp [bind, Except.bind, Except.map, FieldFault.raises, hnumber]
          | some x =>
              -- What is missing is further on, and the rest is a rule of its own.
              have hrest : ∃ other ∈ names, vs.contains other = false := by
                simpa [OrderedMap.contains, hvalue] using hmissing
              have hmap : (do let xs ← vs.numbers names; return x :: xs).map f =
                  (vs.numbers names).map fun xs => f (x :: xs) := by
                cases vs.numbers names <;> rfl
              simp only [Option.some.injEq, exists_eq_left', hnumber, reduceCtorEq, false_or,
                ← ih hrest fun xs => f (x :: xs), ← hmap]
              rfl

end Values

theorem Checklist.missing_mem_errors {l : Checklist} {vs : Values} {name : String}
    (hname : name ∈ l.required) (hmissing : vs.contains name = false) :
    missingFieldTag name ∈ (l.score vs).errors := by
  rw [errors_score, List.mem_append]
  apply Or.inl
  apply List.mem_map_of_mem
  rw [List.mem_filter]
  refine ⟨hname, ?_⟩
  simpa [OrderedMap.contains] using hmissing

/-! ## Times in order

The rule on the times of a ping reads three of them in a row. -/

namespace Ping

variable {vs : Values}

/-- The values that the rule about the order of times reads, in this order. -/
def rangeInputs : List String := ["min_rtt_ms", "mean_rtt_ms", "max_rtt_ms"]

/-- A least, a mean and a greatest time are in order. -/
def inOrder : List Binary64 → Bool
  | [min, mean, max] => min ≤ mean && mean ≤ max
  | _ => false

theorem rttOrdered_eq (vs : Values) :
    rttOrdered vs = (vs.numbers rangeInputs).map inOrder := by
  unfold rttOrdered rangeInputs
  simp only [Values.numbers_cons]
  cases vs.number "min_rtt_ms" with
  | error e => rfl
  | ok min =>
      cases vs.number "mean_rtt_ms" with
      | error e => rfl
      | ok mean => cases vs.number "max_rtt_ms" <;> rfl

/-- **The order of times** is found wrong though one is missing, if what is read before the missing
one is no number. -/
theorem rttRangeInvalid_mem_iff {name : String} (hname : name ∈ rangeInputs)
    (hmissing : vs.contains name = false) :
    Tag.rttRangeInvalid ∈ (checklist.score vs).errors ↔ vs.MeetsMalformed rangeInputs := by
  have hrule : ⟨Tag.rttRangeInvalid, rttOrdered⟩ ∈ checklist.rules := by simp [checklist]
  rw [Checklist.mem_errors_iff (by decide) hrule]
  show FieldFault.raises (rttOrdered vs) = true ↔ _
  rw [rttOrdered_eq, Values.raises_numbers_iff ⟨name, hname, hmissing⟩]

end Ping

/-! ## Headers that were counted

The rule on headers reads a text and then a number, so that it meets nothing malformed before a
missing value. -/

namespace Http

variable {vs values : Values} {name : String}

/-- The values that the rule about headers reads, in this order. -/
def headerInputs : List String := ["headers", "headers_len"]

theorem not_raises_headersCounted (hname : name ∈ headerInputs)
    (hmissing : vs.contains name = false) : FieldFault.raises (headersCounted vs) = false := by
  unfold headersCounted
  rw [Values.text_eq_readAs, Values.number, Values.readAs_eq, Values.readAs_eq]
  cases hheaders : vs.find? "headers" with
  | none => rfl
  | some headers =>
      cases hlength : vs.find? "headers_len" with
      | none => rfl
      | some length =>
          -- Both are there, so neither is what is missing.
          rcases List.mem_pair.1 hname with rfl | rfl
          · simp [OrderedMap.contains, hheaders] at hmissing
          · simp [OrderedMap.contains, hlength] at hmissing

theorem contains_working (parameters : Values) (hname : name ∈ headerInputs)
    (hmissing : values.contains name = false) :
    (working parameters values).contains name = false := by
  have hsame : (working parameters values).AgreesOn headerInputs values :=
    agreesOn_working_self (by decide)
  rwa [OrderedMap.contains, hsame name hname]

/-- **Headers are not found wrong** if they or their length are missing. -/
theorem headerLengthMismatch_not_mem (hname : name ∈ headerInputs)
    (hmissing : vs.contains name = false) : Tag.headerLengthMismatch ∉ (score vs).errors := by
  have hlisted : (Tag.headerLengthMismatch, headerInputs) ∈ successInputs := by decide
  have hrule : ⟨Tag.headerLengthMismatch, headersCounted⟩ ∈ successChecklist.rules := by
    simp [successChecklist]
  rw [mem_errors_iff_of_success hlisted,
    Checklist.mem_errors_iff (List.nodup_append.1 nodup_tags).2.1 hrule, Rule.fails,
    not_raises_headersCounted hname hmissing]
  simp

theorem missing_mem_errors_of_success (hsucceeded : succeeded vs = true)
    (hname : name ∈ successFields) (hmissing : vs.contains name = false) :
    missingFieldTag name ∈ (score vs).errors := by
  rw [errors_score, if_pos hsucceeded]
  exact List.mem_append_right _ (Checklist.missing_mem_errors hname hmissing)

end Http

/-- **Rules that miss a value** leave it to the tag of the missing value, but for the order of times
if something that is no number is read first. -/
theorem Validator.leaves_missing_inputs (parameters values : Values) :
    (∀ name ∈ Ping.rangeInputs, values.contains name = false →
      missingFieldTag name ∈ (ping values).score.errors ∧
        (Tag.rttRangeInvalid ∈ (ping values).score.errors ↔
          values.MeetsMalformed Ping.rangeInputs)) ∧
      ∀ name ∈ Http.headerInputs, values.contains name = false →
        Tag.headerLengthMismatch ∉ (http (Http.working parameters values)).score.errors ∧
          (Http.Succeeded values →
            missingFieldTag name ∈ (http (Http.working parameters values)).score.errors) := by
  constructor
  · intro name hname hmissing
    have hrequired : Ping.rangeInputs ⊆ Ping.checklist.required := by decide
    exact ⟨Checklist.missing_mem_errors (hrequired hname) hmissing,
      Ping.rttRangeInvalid_mem_iff hname hmissing⟩
  · intro name hname hmissing
    have hworking := Http.contains_working parameters hname hmissing
    have hrequired : Http.headerInputs ⊆ Http.successFields := by decide
    refine ⟨Http.headerLengthMismatch_not_mem hname hworking, fun hsucceeded => ?_⟩
    exact Http.missing_mem_errors_of_success ((Http.succeeded_working_iff _ _).2 hsucceeded)
      (hrequired hname) hworking

/-- Times of a ping without the greatest, and a fetch whose headers were not counted. -/
def Values.uncounted : Values := OrderedMap.ofList [
  ("min_rtt_ms", "90"), ("mean_rtt_ms", "50"), ("code", "200"), ("headers", "Server: a")]

theorem Validator.leaves_missing_inputs_ofUncounted :
    Values.uncounted.contains "max_rtt_ms" = false ∧
      Values.uncounted.contains "headers_len" = false ∧ Http.Succeeded .uncounted ∧
      missingFieldTag "max_rtt_ms" ∈ (ping .uncounted).score.errors ∧
      Tag.rttRangeInvalid ∉ (ping .uncounted).score.errors ∧
      Tag.headerLengthMismatch ∉ (http (Http.working .empty .uncounted)).score.errors ∧
      missingFieldTag "headers_len" ∈ (http (Http.working .empty .uncounted)).score.errors := by
  have hmax : Values.uncounted.contains "max_rtt_ms" = false := by decide
  have hlength : Values.uncounted.contains "headers_len" = false := by decide
  have hsucceeded : Http.Succeeded .uncounted := Http.succeeded_iff.1 (by decide +kernel)
  have hnumbers : ¬Values.MeetsMalformed .uncounted Ping.rangeInputs := by
    have hread : ∀ name ∈ Ping.rangeInputs.takeWhile Values.uncounted.contains,
        ((Values.uncounted.find? name).bind parseNumber?).isSome = true := by decide +kernel
    rintro ⟨name, hname, value, hvalue, hnone⟩
    have hsome := hread name hname
    rw [hvalue, Option.bind_some, hnone] at hsome
    cases hsome
  obtain ⟨htimes, hheaders⟩ := leaves_missing_inputs .empty .uncounted
  obtain ⟨hmissing, hiff⟩ := htimes "max_rtt_ms" (by decide) hmax
  obtain ⟨hnot, htag⟩ := hheaders "headers_len" (by decide) hlength
  exact ⟨hmax, hlength, hsucceeded, hmissing, mt hiff.1 hnumbers, hnot, htag hsucceeded⟩

/-- A ping without the greatest time, and with a least time that is no number. -/
def Values.garbledTimes : Values := OrderedMap.ofList [
  ("min_rtt_ms", "fast"), ("mean_rtt_ms", "50"), ("packet_loss", "0.1"), ("stddev_rtt_ms", "5"),
  ("packets_sent", "10"), ("target_ip", "8.8.8.8")]

/-- The order of times is found wrong though there is nothing to compare with. -/
theorem Validator.reports_missing_input :
    Values.garbledTimes.contains "max_rtt_ms" = false ∧
      (ping .garbledTimes).score.errors =
        [missingFieldTag "max_rtt_ms", Tag.rttRangeInvalid] := by
  constructor <;> decide +kernel

end NetAudit
