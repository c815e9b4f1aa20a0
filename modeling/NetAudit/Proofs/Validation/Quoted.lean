import NetAudit.Proofs.Dashboard.TopErrors
import NetAudit.Proofs.Validation.Checklists
import NetAudit.Validation.Validator

/-!
# Values in quotes

A client may put a value in quotes, with white space around them (`Text.Quotes`). Whatever is made
of a value is made of what `Text.unquote` leaves of it (`Text.IgnoresQuotes`), so measurements are
scored alike and counted alike if their values are the same without quotes.

Main statement: `quotes_unseen`.
-/

namespace NetAudit

/-! ## Texts

What is made of a text ignores its quotes if it begins by taking them off. -/

namespace Text

/-- The text `w` is the value `v` in quotes, with any white space around these. -/
def Quotes (v w : String) : Prop :=
  unquote v = v ∧ ∃ before after : List Char, (∀ c ∈ before, isBlank c) ∧
    (∀ c ∈ after, isBlank c) ∧ w = String.ofList (before ++ ('"' :: v.toList ++ ['"']) ++ after)

theorem Quotes.unquote_eq {v w : String} (h : Quotes v w) : unquote w = unquote v := by
  obtain ⟨hv, before, after, hbefore, hafter, rfl⟩ := h
  rw [hv, unquote, String.toList_ofList, unquoteChars_quoted hbefore hafter, String.ofList_toList]

theorem toList_unquote (v : String) : (unquote v).toList = unquoteChars v.toList :=
  String.toList_ofList

/-- All that the function looks at is what is left of a value without its quotes. -/
def IgnoresQuotes {α : Type} (f : String → α) : Prop := ∃ g : String → α, ∀ v, f v = g (unquote v)

theorem IgnoresQuotes.comp {α β : Type} {f : String → α} (hf : IgnoresQuotes f) (h : α → β) :
    IgnoresQuotes fun v => h (f v) := by
  obtain ⟨g, hg⟩ := hf
  exact ⟨fun v => h (g v), fun v => congrArg h (hg v)⟩

end Text

theorem parseNumber?_ignoresQuotes : Text.IgnoresQuotes parseNumber? :=
  ⟨fun v => Number.decimal? v.toList, fun v =>
    congrArg Number.decimal? (Text.toList_unquote v).symm⟩

theorem parseAddress?_ignoresQuotes : Text.IgnoresQuotes parseAddress? :=
  ⟨fun v => Address.ofChars? v.toList, fun v =>
    congrArg Address.ofChars? (Text.toList_unquote v).symm⟩

/-! ## Values

Values are compared by what is left of them without quotes. -/

section Maps

variable {κ α : Type} [Ord κ] {m n : OrderedMap κ String} {f : String → α}

theorem Text.IgnoresQuotes.map_find?_eq (hf : IgnoresQuotes f)
    (h : m.mapValues unquote = n.mapValues unquote) (k : κ) :
    (m.find? k).map f = (n.find? k).map f := by
  obtain ⟨g, hg⟩ := hf
  have hfind : ((m.mapValues unquote).find? k).map g = ((n.mapValues unquote).find? k).map g := by
    rw [h]
  rw [OrderedMap.find?_mapValues, OrderedMap.find?_mapValues, Option.map_map,
    Option.map_map] at hfind
  rwa [funext hg]

theorem Text.IgnoresQuotes.map_values_eq (hf : IgnoresQuotes f)
    (h : m.mapValues unquote = n.mapValues unquote) : m.values.map f = n.values.map f := by
  obtain ⟨g, hg⟩ := hf
  have hvalues : (m.mapValues unquote).values.map g = (n.mapValues unquote).values.map g := by
    rw [h]
  rw [OrderedMap.values_mapValues, OrderedMap.values_mapValues, List.map_map,
    List.map_map] at hvalues
  rwa [funext hg]

end Maps

namespace Values

/-- The values without the quotes around them. -/
def unquoted (vs : Values) : Values := vs.mapValues Text.unquote

section Unquoted

variable {α : Type} {f : String → α} {vs ws : Values}

theorem contains_of_unquoted (h : vs.unquoted = ws.unquoted) (name : String) :
    vs.contains name = ws.contains name := by
  have hnothing : Text.IgnoresQuotes fun _ => () := ⟨fun _ => (), fun _ => rfl⟩
  have hfind := congrArg Option.isSome (hnothing.map_find?_eq h name)
  rwa [Option.isSome_map, Option.isSome_map] at hfind

theorem map_text_of_unquoted (h : vs.unquoted = ws.unquoted) (hf : Text.IgnoresQuotes f)
    (name : String) : (vs.text name).map f = (ws.text name).map f := by
  have hmap : ∀ us : Values, (us.text name).map f =
      ((us.find? name).map f).elim (.error (.missing name)) .ok := by
    intro us
    unfold text
    cases us.find? name <;> rfl
  rw [hmap, hmap, hf.map_find?_eq h]

theorem readAs_of_unquoted {parse : String → Option α} (h : vs.unquoted = ws.unquoted)
    (hparse : Text.IgnoresQuotes parse) (name : String) :
    readAs parse vs name = readAs parse ws name := by
  have hread : ∀ us : Values, readAs parse us name =
      match (us.find? name).map parse with
      | none => .error (.missing name)
      | some (some a) => .ok a
      | some none => .error (.malformed name) := by
    intro us
    rw [readAs_eq]
    cases us.find? name with
    | none => rfl
    | some value => cases h : parse value <;> simp [h]
  rw [hread, hread, hparse.map_find?_eq h]

theorem number_of_unquoted (h : vs.unquoted = ws.unquoted) (name : String) :
    vs.number name = ws.number name := readAs_of_unquoted h parseNumber?_ignoresQuotes name

theorem address_of_unquoted (h : vs.unquoted = ws.unquoted) (name : String) :
    vs.address name = ws.address name := readAs_of_unquoted h parseAddress?_ignoresQuotes name

end Unquoted

end Values

/-! ## Checklists

The rules of pings and of name lookups read all their values through parsers that ignore quotes. -/

section Checklists

variable {vs ws : Values}

theorem Ping.score_of_unquoted (h : vs.unquoted = ws.unquoted) :
    checklist.score vs = checklist.score ws := by
  have hnumber := Values.number_of_unquoted h
  apply Checklist.score_eq fun n _ => Values.contains_of_unquoted h n
  simp only [checklist, rttOrdered, List.forall_mem_cons, hnumber, Values.address_of_unquoted h]
  simp

theorem DnsLookup.score_of_unquoted (h : vs.unquoted = ws.unquoted) :
    checklist.score vs = checklist.score ws := by
  apply Checklist.score_eq fun n _ => Values.contains_of_unquoted h n
  simp only [checklist, List.forall_mem_cons, Values.number_of_unquoted h,
    Values.address_of_unquoted h]
  simp

end Checklists

/-! ## Fetches

A page that is empty without its quotes is empty, and headers are shown as they are but counted
without quotes. -/

namespace Http

variable {vs ws : Values}

/-- The address that was asked for takes its place with its quotes or without. -/
theorem unquoted_working {ps qs : Values} (hparameters : ps.unquoted = qs.unquoted)
    (h : vs.unquoted = ws.unquoted) : (working ps vs).unquoted = (working qs ws).unquoted := by
  have hplain : Text.IgnoresQuotes Text.unquote := ⟨id, fun _ => rfl⟩
  have hurl := hplain.map_find?_eq hparameters "url"
  unfold working
  cases hp : ps.find? "url" with
  | none =>
      cases hq : qs.find? "url" with
      | none => exact h
      | some u => simp [hp, hq] at hurl
  | some t =>
      cases hq : qs.find? "url" with
      | none => simp [hp, hq] at hurl
      | some u =>
          rw [hp, hq] at hurl
          have hurl : Text.unquote t = Text.unquote u := Option.some.inj hurl
          unfold Values.unquoted at h ⊢
          rw [OrderedMap.mapValues_insert, OrderedMap.mapValues_insert, h, hurl]

theorem headersCounted_of_unquoted (h : vs.unquoted = ws.unquoted) :
    headersCounted vs = headersCounted ws := by
  have hsplit : ∀ us : Values, headersCounted us =
      ((us.text "headers").map fun headers => (Text.unquote headers).length) >>= fun n =>
        (us.number "headers_len").map fun declared => declared.same (.ofNat n) := by
    intro us
    unfold headersCounted
    cases us.text "headers" <;> cases us.number "headers_len" <;> rfl
  rw [hsplit, hsplit, Values.map_text_of_unquoted h ⟨String.length, fun _ => rfl⟩,
    Values.number_of_unquoted h]

theorem score_of_unquoted (h : vs.unquoted = ws.unquoted) : score vs = score ws := by
  have hcontains := Values.contains_of_unquoted h
  have hnumber := Values.number_of_unquoted h
  have hbody : bodyNotEmpty vs = bodyNotEmpty ws :=
    Values.map_text_of_unquoted h ⟨fun body => decide (body ≠ ""), fun _ => rfl⟩ "body"
  -- Each thing that the rules look at is a function of the value without its quotes.
  have hprefix : Text.IgnoresQuotes fun url => (Text.unquote url).startsWith "http" :=
    ⟨fun url => url.startsWith "http", fun _ => rfl⟩
  have hevery : checklist.score vs = checklist.score ws := by
    apply Checklist.score_eq fun n _ => hcontains n
    simp only [checklist, List.forall_mem_cons, hnumber, Values.map_text_of_unquoted h hprefix]
    simp
  have hsuccess : ∀ o, scoreSuccess vs o = scoreSuccess ws o := by
    intro o
    simp only [scoreSuccess, Outcome.require_congr o fun n _ => hcontains n, hbody, bodyCounted,
      hnumber, headersCounted_of_unquoted h]
  have hsucceeded : succeeded vs = succeeded ws := by
    unfold succeeded
    rw [hnumber]
  unfold score
  rw [hsucceeded, hsuccess, hevery]

end Http

/-! ## Routes

A route is read from keys, which have no quotes, and its values are read when the route is
scored. -/

namespace Route

variable {r s : Route}

/-- The route without the quotes around its addresses and times. -/
def unquoted (r : Route) : Route :=
  ⟨r.hops.mapValues (OrderedMap.mapValues Text.unquote), r.rtts.mapValues Text.unquote⟩

theorem unquoted_add (r : Route) (key value : String) :
    (r.add key value).unquoted = r.unquoted.add key (Text.unquote value) := by
  unfold add
  split
  · next index field hkey =>
    unfold unquoted OrderedMap.update
    rw [OrderedMap.mapValues_insert, OrderedMap.mapValues_insert, OrderedMap.find?_mapValues]
    cases r.hops.find? index <;> rfl
  · next index hkey =>
    unfold unquoted OrderedMap.update
    rw [OrderedMap.mapValues_insert, OrderedMap.find?_mapValues]
    cases r.rtts.find? index <;> rfl
  · rfl

theorem unquoted_ofValues (vs : Values) : (ofValues vs).unquoted = ofValues vs.unquoted := by
  have hfold : ∀ (es : List (String × String)) (r : Route),
      (es.foldl (fun r e => r.add e.1 e.2) r).unquoted =
        (es.map fun e => (e.1, Text.unquote e.2)).foldl (fun r e => r.add e.1 e.2) r.unquoted := by
    intro es
    induction es with
    | nil => exact fun _ => rfl
    | cons e es ih =>
        intro r
        rw [List.foldl_cons, List.map_cons, List.foldl_cons, ih, unquoted_add]
  exact hfold vs.toList empty

theorem rttInRange_eq (value : String) :
    rttInRange value = (parseNumber? value).elim false (between 0 3000) := by
  unfold rttInRange
  cases parseNumber? value <;> rfl

theorem rttInRange_ignoresQuotes : Text.IgnoresQuotes rttInRange := by
  rw [funext rttInRange_eq]
  exact parseNumber?_ignoresQuotes.comp fun rtt => rtt.elim false (between 0 3000)

section Unquoted

theorem scoreRtt_of_unquoted (h : r.unquoted = s.unquoted) (index : Nat) :
    r.scoreRtt index = s.scoreRtt index := by
  have hscore : ∀ q : Route, q.scoreRtt index =
      match (q.rtts.find? index).map rttInRange with
      | some true => .clean
      | some false => Outcome.clean.fail Tag.latencyNotValid
      | none => (Outcome.clean.remark (.hopWithoutRtt index)).fail (missingFieldTag "rtt") := by
    intro q
    unfold scoreRtt
    cases q.rtts.find? index with
    | none => rfl
    | some value => cases h : rttInRange value <;> simp [h]
  rw [hscore, hscore, rttInRange_ignoresQuotes.map_find?_eq (congrArg Route.rtts h)]

theorem scoreHop_of_unquoted (h : r.unquoted = s.unquoted) (position index : Nat)
    {as bs : OrderedMap String String}
    (hab : as.mapValues Text.unquote = bs.mapValues Text.unquote) :
    r.scoreHop position index as = s.scoreHop position index bs := by
  have hnone := parseAddress?_ignoresQuotes.comp Option.isNone
  -- A tag is raised for each address that cannot be read, whatever it looks like.
  have hbad : ∀ cs : List String,
      ((cs.filter fun a => (parseAddress? a).isNone).map fun _ => Tag.addressNotValid) =
        ((cs.map fun a => (parseAddress? a).isNone).filter id).map fun _ =>
          Tag.addressNotValid := by
    intro cs
    rw [List.filter_map, List.map_map]
    rfl
  unfold scoreHop
  rw [hbad, hbad, hnone.map_values_eq hab, scoreRtt_of_unquoted h]

theorem scoreHops_of_unquoted (h : r.unquoted = s.unquoted) (position : Nat)
    {es ds : List (Nat × OrderedMap String String)}
    (hes : (es.map fun e => (e.1, e.2.mapValues Text.unquote)) =
      ds.map fun e => (e.1, e.2.mapValues Text.unquote)) :
    r.scoreHops position es = s.scoreHops position ds := by
  induction es generalizing ds position with
  | nil => rw [List.map_eq_nil_iff.1 hes.symm]; rfl
  | cons e es ih =>
      obtain ⟨⟨index, addresses⟩, ds, rfl, hd, hds⟩ := List.map_eq_cons_iff.1 hes.symm
      obtain ⟨rfl, haddresses⟩ := Prod.mk.inj hd
      rw [scoreHops, scoreHops, scoreHop_of_unquoted h position e.1 haddresses.symm,
        ih (position + 1) hds.symm]

/-- Routes that are the same without quotes are scored alike. -/
theorem score_of_unquoted (h : r.unquoted = s.unquoted) : r.score = s.score :=
  scoreHops_of_unquoted h 0 (congrArg OrderedMap.toList (congrArg Route.hops h))

end Unquoted

end Route

/-! ## Measurements

Some values of a measurement are put in quotes. Then all that is scored or ranked stays as it
was. -/

/-- Measurements with the same values but for quotes are scored alike. -/
theorem Validator.score_of_unquoted {m n : Measurement} (hkind : m.kind = n.kind)
    (hparameters : m.parameters.unquoted = n.parameters.unquoted)
    (hvalues : m.values.unquoted = n.values.unquoted) : (of? m).map score = (of? n).map score := by
  have hroute : (Route.ofValues m.values).score = (Route.ofValues n.values).score := by
    apply Route.score_of_unquoted
    rw [Route.unquoted_ofValues, Route.unquoted_ofValues, hvalues]
  unfold of?
  rw [hkind]
  cases n.kind with
  | ping => exact congrArg Except.ok (Ping.score_of_unquoted hvalues)
  | dnsLookup => exact congrArg Except.ok (DnsLookup.score_of_unquoted hvalues)
  | traceroute => exact congrArg Except.ok hroute
  | http =>
      exact congrArg Except.ok (Http.score_of_unquoted (Http.unquoted_working hparameters hvalues))
  | udpBurst | tcpThroughput | rrc | other => rfl

/-- The second map has the values of the first, but some of them are in quotes. -/
def Values.Quoted (vs ws : Values) : Prop :=
  ∀ name, Option.Rel (fun v w => w = v ∨ Text.Quotes v w) (vs.find? name) (ws.find? name)

namespace Values.Quoted

variable {vs ws : Values} {name v w : String}

theorem refl (vs : Values) : vs.Quoted vs := by
  intro name
  cases vs.find? name with
  | none => exact .none
  | some v => exact .some (.inl rfl)

/-- Quotes are put around one value. -/
theorem insert (hv : vs.find? name = some v) (h : Text.Quotes v w) :
    vs.Quoted (OrderedMap.insert vs name w) := by
  intro other
  rw [OrderedMap.find?_insert]
  by_cases hother : other = name
  · rw [if_pos hother, hother, hv]
    exact .some (.inr h)
  · rw [if_neg hother]
    exact refl vs other

theorem unquoted_eq (h : vs.Quoted ws) : vs.unquoted = ws.unquoted := by
  apply OrderedMap.ext_find?
  intro name
  unfold Values.unquoted
  rw [OrderedMap.find?_mapValues, OrderedMap.find?_mapValues]
  have hname := h name
  generalize vs.find? name = x, ws.find? name = y at hname
  cases hname with
  | none => rfl
  | some hvalue =>
      rcases hvalue with rfl | hquotes
      · rfl
      · exact congrArg some hquotes.unquote_eq.symm

end Values.Quoted

/-- The second measurement is the first, but some of its parameters and values are in quotes. -/
structure Measurement.Quoted (m n : Measurement) : Prop where
  parameters : m.parameters.Quoted n.parameters
  values : m.values.Quoted n.values
  rest : n = { m with parameters := n.parameters, values := n.values }

theorem Measurement.Quoted.id_eq {m n : Measurement} (h : m.Quoted n) : m.id = n.id := by
  rw [h.rest]

theorem Measurement.Quoted.kind_eq {m n : Measurement} (h : m.Quoted n) : m.kind = n.kind := by
  rw [h.rest]

theorem Measurement.Quoted.error?_eq {m n : Measurement} (h : m.Quoted n) :
    m.error? = n.error? := by
  have hsuccess : m.success = n.success := by rw [h.rest]
  have hplain : Text.IgnoresQuotes fun error => errorExcerpt (Text.unquote error) :=
    ⟨errorExcerpt, fun _ => rfl⟩
  unfold Measurement.error?
  rw [hsuccess, hplain.map_find?_eq h.values.unquoted_eq]

/-- The second view has the measurements of the first, but some of their parameters and values are
in quotes. -/
def View.Quoted (v w : View) : Prop :=
  ∀ id, v.measurement id = w.measurement id ∨
    ∃ m n, v.measurement id = .ok (some m) ∧ w.measurement id = .ok (some n) ∧ m.Quoted n

namespace View.Quoted

variable {v w : View}

theorem errorOf?_eq (h : v.Quoted w) : v.errorOf? = w.errorOf? := by
  funext id
  unfold errorOf?
  rcases h id with hsame | ⟨m, n, hm, hn, hquoted⟩
  · rw [hsame]
  · rw [hm, hn]
    exact hquoted.error?_eq

theorem faultAmong_eq (h : v.Quoted w) : v.faultAmong = w.faultAmong := by
  have hfault : (fun id => faultOf (v.measurement id)) = fun id => faultOf (w.measurement id) := by
    funext id
    rcases h id with hsame | ⟨m, n, hm, hn, -⟩
    · rw [hsame]
    · rw [hm, hn]
      rfl
  funext ids
  unfold faultAmong
  rw [hfault]

end View.Quoted

/-- Archives that differ in the quotes of one measurement show such views. -/
theorem Archive.view_quoted (a : Archive) {m n : Measurement} (h : m.Quoted n) :
    (a.insertMeasurement m).view.Quoted (a.insertMeasurement n).view := by
  intro id
  show Except.ok _ = Except.ok _ ∨ _
  have hother : (id = n.id) = (id = m.id) := by rw [h.id_eq]
  by_cases hid : id = m.id
  · refine .inr ⟨m, n, congrArg Except.ok ?_, congrArg Except.ok ?_, h⟩
    · exact (OrderedMap.find?_insert _ _ _ _).trans (if_pos hid)
    · exact (OrderedMap.find?_insert _ _ _ _).trans (if_pos (hother ▸ hid))
  · refine .inl (congrArg Except.ok ?_)
    show (a.measurements.insert m.id m).find? id = (a.measurements.insert n.id n).find? id
    rw [OrderedMap.find?_insert, OrderedMap.find?_insert, if_neg hid, if_neg (hother ▸ hid)]

/-- **Quotes around values are not seen**, neither by what scores a measurement nor by what counts
its error. -/
theorem quotes_unseen :
    (∀ {m n : Measurement}, m.Quoted n →
      (Validator.of? m).map Validator.score = (Validator.of? n).map Validator.score) ∧
    ∀ {σ τ : Type} {store : Store σ} {other : Store τ} {states : σ → Prop} {others : τ → Prop}
      {v w : View} {s : σ} {t : τ}, store.Shows states v → other.Shows others w → v.Quoted w →
      states s → others t → ∀ (entries : List Entry) (n : Nat),
        ((TopErrors.ofEntries store entries n).perform s).value =
          ((TopErrors.ofEntries other entries n).perform t).value := by
  constructor
  · intro m n h
    exact Validator.score_of_unquoted h.kind_eq h.parameters.unquoted_eq h.values.unquoted_eq
  · intro σ τ store other states others v w s t hv hw h hs ht entries n
    have hranked := (TopErrors.ofMeasurements_ensures hv (entries.map (·.measurement)) n).perform hs
    have hothers := (TopErrors.ofMeasurements_ensures hw (entries.map (·.measurement)) n).perform ht
    rw [h.errorOf?_eq, h.faultAmong_eq] at hranked
    exact hranked.trans hothers.symm

/-- A fetch that failed with a lone quote for an error. -/
def Measurement.failedFetch : Measurement :=
  ⟨⟨"fetch"⟩, .http, .epoch, false, .ofList [("url", "http://example.org")],
    .ofList [("code", "504"), ("error", "\"")], ⟨"phone"⟩, none⟩

/-- The failed fetch with quotes around its address and around its error. -/
def Measurement.failedFetchQuoted : Measurement :=
  { failedFetch with
    parameters := failedFetch.parameters.insert "url" "\u00a0\"http://example.org\""
    values := failedFetch.values.insert "error" "\"\"\" \n" }

theorem Measurement.failedFetch_quoted : failedFetch.Quoted failedFetchQuoted where
  parameters := by
    have hurl : Text.Quotes "http://example.org" "\u00a0\"http://example.org\"" :=
      ⟨by decide +kernel, ['\u00a0'], [], by simp [Text.isBlank], by simp, by decide +kernel⟩
    exact .insert (by decide +kernel) hurl
  values := by
    have herror : Text.Quotes "\"" "\"\"\" \n" :=
      ⟨by decide +kernel, [], [' ', '\n'], by simp, by simp [Text.isBlank], by decide +kernel⟩
    exact .insert (by decide +kernel) herror
  rest := rfl

theorem quotes_unseen_failedFetch :
    let m := Measurement.failedFetch
    let n := Measurement.failedFetchQuoted
    let entries : List Entry := [⟨.nth 0 0, ⟨"fetch"⟩, []⟩]
    (Validator.of? m).map Validator.score = (Validator.of? n).map Validator.score ∧
      ((TopErrors.ofEntries Archive.store entries 5).perform
        ((Archive.empty 0).insertMeasurement m)).value =
          ((TopErrors.ofEntries Archive.store entries 5).perform
            ((Archive.empty 0).insertMeasurement n)).value :=
  ⟨quotes_unseen.1 Measurement.failedFetch_quoted,
    quotes_unseen.2 (Archive.store_shows _) (Archive.store_shows _)
      (Archive.view_quoted _ Measurement.failedFetch_quoted) rfl rfl _ _⟩

end NetAudit
