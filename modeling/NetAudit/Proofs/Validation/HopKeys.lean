import Mathlib.Data.String.Basic
import NetAudit.Proofs.Digits
import NetAudit.Proofs.OrderedMap
import NetAudit.Validation.Traceroute

/-!
# Keys of hops, and the routes that are read from them

A key names a hop by any numeral of its index, so one address can stand under many keys. `Spells`
says which keys these are; reading a key is to find what it spells (`ofChars?_eq_some_iff`).

The values of a route are gone through by ascending key. Of the keys that spell the same address the
last counts (`Route.address?_ofValues_eq_some_iff`), of those that spell the same time the first
(`Route.rtt_ofValues_eq_some_iff`).
-/

namespace NetAudit

open Number

namespace HopKey

/-- A name for an address of a hop: a line of text. -/
structure IsField (field : String) : Prop where
  ne_empty : field ≠ ""
  oneLine : '\n' ∉ field.toList

instance (field : String) : Decidable (IsField field) :=
  decidable_of_iff (field ≠ "" ∧ '\n' ∉ field.toList)
    ⟨fun h => ⟨h.1, h.2⟩, fun h => ⟨h.ne_empty, h.oneLine⟩⟩

/-- The key of an address, from a numeral of the index of its hop. -/
def addressText (numeral field : String) : String := "hop_" ++ numeral ++ "_addr_" ++ field

/-- The key of the time to a hop, from a numeral of the index of the hop. -/
def rttText (numeral : String) : String := "hop_" ++ numeral ++ "_rtt"

/-- A key says this about a hop. -/
inductive Spells : String → HopKey → Prop where
  | address {numeral field : String} (hnumeral : IsNumeral numeral)
      (hindex : valueOf numeral < indexBound) (hfield : IsField field) :
      Spells (addressText numeral field) (.address (valueOf numeral) field)
  | rtt {numeral : String} (hnumeral : IsNumeral numeral)
      (hindex : valueOf numeral < indexBound) : Spells (rttText numeral) (.rtt (valueOf numeral))

variable {key : String} {k l : HopKey} {numeral field : String}

theorem toList_addressText (numeral field : String) :
    (addressText numeral field).toList =
      "hop_".toList ++ (numeral.toList ++ ("_addr_".toList ++ field.toList)) := by
  simp [addressText]

theorem toList_rttText (numeral : String) :
    (rttText numeral).toList = "hop_".toList ++ (numeral.toList ++ "_rtt".toList) := by
  simp [rttText]

/-! ## Reading a key

The reader of keys goes through the characters. `Spells` is what it accepts, in terms of the text of
a numeral and of a field. -/

theorem isPrefixOf?_append (xs ys : List Char) : xs.isPrefixOf? (xs ++ ys) = some ys :=
  List.isPrefixOf?_eq_some_iff_append_eq.2 rfl

theorem digits?_numeral (hnumeral : IsNumeral numeral) (hindex : valueOf numeral < indexBound) :
    digits? indexBound numeral.toList = some (valueOf numeral) :=
  digits?_eq_some_iff.2 ⟨by simpa using hnumeral.ne_empty, hnumeral.digits, rfl, hindex⟩

theorem Spells.ofChars?_eq (h : Spells key k) : ofChars? key.toList = some k := by
  cases h with
  | @address numeral field hnumeral hindex hfield =>
      have hpart : ∀ c ∈ ("_addr_".toList ++ field.toList).head?, c.isDigit = false := by simp
      rw [toList_addressText, ofChars?, isPrefixOf?_append]
      simp only [Option.bind_eq_bind, Option.bind_some, takeWhile_isDigit hnumeral.digits hpart,
        dropWhile_isDigit hnumeral.digits hpart, digits?_numeral hnumeral hindex,
        isPrefixOf?_append]
      simp [hfield.ne_empty, hfield.oneLine]
  | @rtt numeral hnumeral hindex =>
      have hpart : ∀ c ∈ "_rtt".toList.head?, c.isDigit = false := by simp
      have hnone : "_addr_".toList.isPrefixOf? "_rtt".toList = none := by decide
      rw [toList_rttText, ofChars?, isPrefixOf?_append]
      simp only [Option.bind_eq_bind, Option.bind_some, takeWhile_isDigit hnumeral.digits hpart,
        dropWhile_isDigit hnumeral.digits hpart, digits?_numeral hnumeral hindex, hnone, if_true]

theorem spells_of_ofChars? (h : ofChars? key.toList = some k) : Spells key k := by
  simp only [ofChars?, Option.bind_eq_bind, Option.bind_eq_some_iff, digits?_eq_some_iff,
    List.isPrefixOf?_eq_some_iff_append_eq] at h
  obtain ⟨rest, hkey, index, ⟨hne, hdigits, rfl, hindex⟩, hpart⟩ := h
  have hsplit := List.takeWhile_append_dropWhile (p := Char.isDigit) (l := rest)
  -- The digits in front are a numeral of the index.
  obtain ⟨numeral, hnumeral⟩ : ∃ s : String, s.toList = rest.takeWhile Char.isDigit :=
    ⟨String.ofList _, String.toList_ofList⟩
  rw [← hnumeral] at hsplit hne hdigits hindex hpart
  have his : IsNumeral numeral := ⟨by simpa using hne, hdigits⟩
  split at hpart
  · next field hfield =>
    split at hpart
    · cases hpart
    · next hline =>
      obtain rfl := Option.some.inj hpart
      simp only [Bool.or_eq_true, List.isEmpty_iff, List.contains_iff_mem, not_or] at hline
      have htext : key = addressText numeral (String.ofList field) := by
        have hchars : (String.ofList field).toList = field := String.toList_ofList
        rw [← String.toList_inj, toList_addressText, hchars,
          List.isPrefixOf?_eq_some_iff_append_eq.1 hfield, hsplit, hkey]
      rw [htext]
      exact .address his hindex ⟨by simpa using hline.1, by simpa using hline.2⟩
  · split at hpart
    · next hrtt =>
      obtain rfl := Option.some.inj hpart
      have htext : key = rttText numeral := by
        rw [← String.toList_inj, toList_rttText, ← hrtt, hsplit, hkey]
      rw [htext]
      exact .rtt his hindex
    · cases hpart

/-- **A key is read as what it spells**, and any other key is not read. -/
theorem ofChars?_eq_some_iff : ofChars? key.toList = some k ↔ Spells key k :=
  ⟨spells_of_ofChars?, Spells.ofChars?_eq⟩

/-- A key spells one thing only. -/
theorem Spells.eq (hk : Spells key k) (hl : Spells key l) : k = l :=
  Option.some.inj (hk.ofChars?_eq.symm.trans hl.ofChars?_eq)

theorem spells_address_iff {index : Nat} : Spells key (.address index field) ↔
    ∃ numeral, key = addressText numeral field ∧ IsNumeral numeral ∧ valueOf numeral = index ∧
      index < indexBound ∧ IsField field := by
  constructor
  · rintro ⟨hnumeral, hindex, hfield⟩
    exact ⟨_, rfl, hnumeral, rfl, hindex, hfield⟩
  · rintro ⟨numeral, rfl, hnumeral, rfl, hindex, hfield⟩
    exact .address hnumeral hindex hfield

theorem spells_rtt_iff {index : Nat} : Spells key (.rtt index) ↔
    ∃ numeral, key = rttText numeral ∧ IsNumeral numeral ∧ valueOf numeral = index ∧
      index < indexBound := by
  constructor
  · rintro (_ | ⟨hnumeral, hindex⟩)
    exact ⟨_, rfl, hnumeral, rfl, hindex⟩
  · rintro ⟨numeral, rfl, hnumeral, rfl, hindex⟩
    exact .rtt hnumeral hindex

/-! ## The order of keys

Of two keys for the same part the one with more zeros in front is the lesser. This holds for
addresses and for times, though what stands behind the numeral differs. -/

variable {s t : String}

theorem addressText_lt (hs : IsNumeral s) (ht : IsNumeral t) (h : valueOf s = valueOf t)
    (hlt : t.length < s.length) : addressText s field < addressText t field := by
  rw [String.lt_iff_toList_lt, toList_addressText, toList_addressText]
  apply List.append_left_lt
  rw [← String.length_toList, ← String.length_toList] at hlt
  exact lt_of_length_lt hs.digits ht.digits h hlt (by decide) _

theorem rttText_lt (hs : IsNumeral s) (ht : IsNumeral t) (h : valueOf s = valueOf t)
    (hlt : t.length < s.length) : rttText s < rttText t := by
  rw [String.lt_iff_toList_lt, toList_rttText, toList_rttText]
  apply List.append_left_lt
  rw [← String.length_toList, ← String.length_toList] at hlt
  exact lt_of_length_lt hs.digits ht.digits h hlt (by decide) _

end HopKey

/-! ## The first and the last of some entries

Entries in order can be searched from either end; the first one that fits is then the least or the
greatest. -/

/-- Where entries are in order, the first that is wanted is the least of those. -/
theorem find?_eq_some_iff_of_pairwise {α : Type} {R : α → α → Prop} {xs : List α}
    (hR : ∀ a b, R a b → ¬R b a) (hxs : xs.Pairwise R) {p : α → Bool} {a : α} :
    xs.find? p = some a ↔ a ∈ xs ∧ p a = true ∧ ∀ b ∈ xs, p b = true → b = a ∨ R a b := by
  induction xs with
  | nil => simp
  | cons x xs ih =>
      obtain ⟨hx, hxs⟩ := List.pairwise_cons.1 hxs
      rw [List.find?_cons]
      -- The first item is found if it fits, and then it is before all others.
      cases hp : p x with
      | true =>
          simp only [Option.some.injEq, List.forall_mem_cons]
          constructor
          · rintro rfl
            exact ⟨List.mem_cons_self, hp, fun _ => .inl rfl, fun b hb _ => .inr (hx b hb)⟩
          · rintro ⟨ha, -, hfirst, -⟩
            rcases List.mem_cons.1 ha with rfl | ha
            · rfl
            · rcases hfirst hp with heq | hlt
              · exact heq
              · exact absurd (hx a ha) (hR _ _ hlt)
      | false =>
          rw [ih hxs]
          constructor
          · rintro ⟨ha, hpa, hleast⟩
            refine ⟨List.mem_cons_of_mem _ ha, hpa, List.forall_mem_cons.2 ⟨?_, hleast⟩⟩
            simp [hp]
          · rintro ⟨ha, hpa, hleast⟩
            rcases List.mem_cons.1 ha with rfl | ha
            · rw [hp] at hpa
              cases hpa
            · exact ⟨ha, hpa, (List.forall_mem_cons.1 hleast).2⟩

namespace Route

open HopKey

variable {r : Route} {vs : Values} {key value field : String} {index : Nat}

/-- The address under a field of a hop. -/
def address? (r : Route) (index : Nat) (field : String) : Option String :=
  (r.hops.find? index).bind fun hop => hop.find? field

/-! ## What one value adds

A later address replaces an earlier one, and a later time does not. -/

theorem address?_add (r : Route) (key value : String) (index : Nat) (field : String) :
    (r.add key value).address? index field =
      if ofChars? key.toList = some (.address index field) then some value
      else r.address? index field := by
  unfold add address?
  split
  · next i f hkey =>
    simp only [hkey, Option.some.injEq, address.injEq, OrderedMap.find?_update]
    by_cases hindex : index = i
    · subst hindex
      simp only [if_true, Option.bind_some, OrderedMap.find?_insert, true_and]
      by_cases hfield : field = f
      · simp [hfield]
      · rw [if_neg hfield, if_neg (Ne.symm hfield)]
        cases r.hops.find? index <;> rfl
    · simp [hindex, Ne.symm hindex]
  · next i hkey => simp [hkey]
  · next hkey => simp [hkey]

theorem rtt_add (r : Route) (key value : String) (index : Nat) :
    (r.add key value).rtts.find? index =
      if ofChars? key.toList = some (.rtt index) then some ((r.rtts.find? index).getD value)
      else r.rtts.find? index := by
  unfold add
  split
  · next hkey => simp [hkey]
  · next i hkey =>
    simp only [hkey, Option.some.injEq, rtt.injEq, OrderedMap.find?_update, eq_comm (a := i)]
    split
    · next hindex => rw [hindex]
    · rfl
  · next hkey => simp [hkey]

/-- A hop of the route has an address. -/
def HasAddresses (r : Route) : Prop :=
  ∀ index hop, r.hops.find? index = some hop → ∃ field value, hop.find? field = some value

theorem HasAddresses.add (h : r.HasAddresses) (key value : String) :
    (r.add key value).HasAddresses := by
  unfold Route.add
  split
  · next i f hkey =>
    intro index hop hhop
    simp only [OrderedMap.find?_update] at hhop
    split at hhop
    · obtain rfl := Option.some.inj hhop
      exact ⟨f, value, by simp [OrderedMap.find?_insert]⟩
    · exact h index hop hhop
  · exact h
  · exact h

/-! ## What all values make

Gone through in order, the last address and the first time are left. -/

/-- The entry of a value spells this about a hop. -/
def spelled (k : HopKey) (e : String × String) : Bool := ofChars? e.1.toList = some k

theorem spelled_iff {k : HopKey} {e : String × String} : spelled k e = true ↔ Spells e.1 k := by
  rw [spelled, decide_eq_true_eq, ofChars?_eq_some_iff]

theorem address?_foldl_add (es : List (String × String)) (r : Route) :
    (es.foldl (fun r e => r.add e.1 e.2) r).address? index field =
      ((es.reverse.find? (spelled (.address index field))).map (·.2)).or
        (r.address? index field) := by
  induction es generalizing r with
  | nil => simp
  | cons e es ih =>
      rw [List.foldl_cons, ih, address?_add, List.reverse_cons, List.find?_append]
      cases es.reverse.find? (spelled (.address index field)) with
      | some d => rfl
      | none => by_cases h : ofChars? e.1.toList = some (.address index field) <;> simp [spelled, h]

theorem rtt_foldl_add (es : List (String × String)) (r : Route) :
    (es.foldl (fun r e => r.add e.1 e.2) r).rtts.find? index =
      (r.rtts.find? index).or ((es.find? (spelled (.rtt index))).map (·.2)) := by
  induction es generalizing r with
  | nil => simp
  | cons e es ih =>
      rw [List.foldl_cons, ih, rtt_add, List.find?_cons]
      by_cases h : ofChars? e.1.toList = some (.rtt index)
      · cases r.rtts.find? index <;> simp [spelled, h]
      · simp [spelled, h]

theorem hasAddresses_ofValues (vs : Values) : (ofValues vs).HasAddresses := by
  have hfold : ∀ (es : List (String × String)) (r : Route), r.HasAddresses →
      (es.foldl (fun r e => r.add e.1 e.2) r).HasAddresses := by
    intro es
    induction es with
    | nil => exact fun r hr => hr
    | cons e es ih => exact fun r hr => ih _ (hr.add e.1 e.2)
  apply hfold
  intro index hop hhop
  cases hhop

theorem pairwise_lt (vs : Values) : vs.toList.Pairwise fun a b => a.1 < b.1 :=
  vs.ascending.imp compare_lt_iff_lt.1

/-- The value that is found for a part of a hop is that of the first key, in some order, which
spells that part. -/
theorem find?_spelled_eq_some_iff {R : String → String → Prop} (hR : ∀ a b, R a b → ¬R b a)
    {es : List (String × String)} (hes : es.Pairwise fun a b => R a.1 b.1)
    (hvs : ∀ key value, (key, value) ∈ es ↔ vs.find? key = some value) {k : HopKey} :
    (es.find? (spelled k)).map (·.2) = some value ↔
      ∃ key, vs.find? key = some value ∧ Spells key k ∧
        ∀ other, vs.contains other = true → Spells other k → other = key ∨ R key other := by
  rw [Option.map_eq_some_iff]
  simp only [find?_eq_some_iff_of_pairwise (fun a b => hR a.1 b.1) hes, spelled_iff]
  constructor
  · rintro ⟨⟨key, value⟩, ⟨hmem, hspells, hfirst⟩, rfl⟩
    refine ⟨key, (hvs _ _).1 hmem, hspells, fun other hother hspells' => ?_⟩
    obtain ⟨w, hw⟩ := Option.isSome_iff_exists.1 hother
    exact (hfirst (other, w) ((hvs _ _).2 hw) hspells').imp_left (congrArg Prod.fst)
  · rintro ⟨key, hkey, hspells, hfirst⟩
    refine ⟨(key, value), ⟨(hvs _ _).2 hkey, hspells, ?_⟩, rfl⟩
    rintro ⟨other, w⟩ hmem hspells'
    have hw := (hvs _ _).1 hmem
    refine (hfirst other (Option.isSome_iff_exists.2 ⟨w, hw⟩) hspells').imp_left ?_
    rintro rfl
    rw [Option.some.inj (hw.symm.trans hkey)]

/-- **An address of a route** is the value under the last of the keys that spell it. -/
theorem address?_ofValues_eq_some_iff :
    (ofValues vs).address? index field = some value ↔
      ∃ key, vs.find? key = some value ∧ Spells key (.address index field) ∧
        ∀ other, vs.contains other = true → Spells other (.address index field) → other ≤ key := by
  have hempty : empty.address? index field = none := rfl
  have hreverse := List.pairwise_reverse.2 (pairwise_lt vs)
  rw [ofValues, address?_foldl_add, hempty, Option.or_none,
    find?_spelled_eq_some_iff (R := fun a b => b < a) (fun _ _ => lt_asymm) hreverse
      fun key value => by rw [List.mem_reverse, OrderedMap.find?_eq_some_iff]]
  simp only [le_iff_eq_or_lt]

/-- **A time of a route** is the value under the first of the keys that spell it. -/
theorem rtt_ofValues_eq_some_iff :
    (ofValues vs).rtts.find? index = some value ↔
      ∃ key, vs.find? key = some value ∧ Spells key (.rtt index) ∧
        ∀ other, vs.contains other = true → Spells other (.rtt index) → key ≤ other := by
  have hempty : empty.rtts.find? index = none := rfl
  rw [ofValues, rtt_foldl_add, hempty, Option.none_or,
    find?_spelled_eq_some_iff (R := (· < ·)) (fun _ _ => lt_asymm) (pairwise_lt vs)
      fun key value => by rw [OrderedMap.find?_eq_some_iff]]
  simp only [le_iff_eq_or_lt, eq_comm]

/-- A hop has an address if some key spells one. -/
theorem isSome_address?_ofValues (hkey : vs.contains key = true)
    (hspells : Spells key (.address index field)) :
    ((ofValues vs).address? index field).isSome = true := by
  obtain ⟨value, hvalue⟩ := Option.isSome_iff_exists.1 hkey
  have hmem : (key, value) ∈ vs.toList.reverse :=
    List.mem_reverse.2 ((OrderedMap.find?_eq_some_iff _ _ _).1 hvalue)
  have hfound : (vs.toList.reverse.find? (spelled (.address index field))).isSome = true :=
    List.find?_isSome.2 ⟨_, hmem, spelled_iff.2 hspells⟩
  rw [ofValues, address?_foldl_add, Option.isSome_or, Option.isSome_map, hfound, Bool.true_or]

end Route

end NetAudit
