import Mathlib.Data.List.Nodup
import NetAudit.Proofs.Validation.HopKeys

/-!
# Routes written under flat keys

A route is written into one map of values by giving each of its addresses and times a key of its
own, with the index in plain digits. Such keys are distinct and say what they stand for
(`spells_text`), so the route is read back as it was, whatever stands under other keys
(`Route.ofValues_flattened`).
-/

namespace NetAudit

open Number

namespace HopKey

/-- The plain key for a part of a hop. -/
def text : HopKey → String
  | .address index field => addressText (toString index) field
  | .rtt index => rttText (toString index)

/-- A part of a hop that has a key: its index has 32 bits, and its field is a line of text. -/
def IsWritable : HopKey → Prop
  | .address index field => index < indexBound ∧ IsField field
  | .rtt index => index < indexBound

instance (k : HopKey) : Decidable k.IsWritable :=
  match k with
  | .address index field => inferInstanceAs (Decidable (index < indexBound ∧ IsField field))
  | .rtt index => inferInstanceAs (Decidable (index < indexBound))

/-- A key looks like one for a part of a hop, though its index may be out of range. -/
inductive HasForm : String → Prop where
  | address {numeral field : String} (hnumeral : IsNumeral numeral) (hfield : IsField field) :
      HasForm (addressText numeral field)
  | rtt {numeral : String} (hnumeral : IsNumeral numeral) : HasForm (rttText numeral)

theorem Spells.hasForm {key : String} {k : HopKey} (h : Spells key k) : HasForm key := by
  cases h with
  | address hnumeral _ hfield => exact .address hnumeral hfield
  | rtt hnumeral _ => exact .rtt hnumeral

theorem HasForm.prefix_hop {key : String} (h : HasForm key) : "hop_".toList <+: key.toList := by
  cases h with
  | address => exact ⟨_, (toList_addressText _ _).symm⟩
  | rtt => exact ⟨_, (toList_rttText _).symm⟩

/-- **A plain key spells what it is the key of.** -/
theorem spells_text {k : HopKey} (hk : k.IsWritable) : Spells k.text k := by
  cases k with
  | address index field =>
      exact spells_address_iff.2 ⟨_, rfl, isNumeral_toString index, valueOf_toString index, hk⟩
  | rtt index =>
      exact spells_rtt_iff.2 ⟨_, rfl, isNumeral_toString index, valueOf_toString index, hk⟩

theorem text_inj {k l : HopKey} (hk : k.IsWritable) (hl : l.IsWritable) (h : k.text = l.text) :
    k = l :=
  (spells_text hk).eq (h ▸ spells_text hl)

end HopKey

namespace Route

open HopKey

variable {r s : Route} {others : Values} {key value : String} {k : HopKey}

/-! ## The parts of a route

A route is a map of maps and a map of times. It is determined by its parts, each of which stands
under one key. -/

/-- What a route has for a part of a hop. -/
def find? (r : Route) : HopKey → Option String
  | .address index field => r.address? index field
  | .rtt index => r.rtts.find? index

/-- All addresses and times of a route. -/
def entries (r : Route) : List (HopKey × String) :=
  (r.hops.toList.flatMap fun hop => hop.2.toList.map fun e => (.address hop.1 e.1, e.2)) ++
    r.rtts.toList.map fun e => (.rtt e.1, e.2)

theorem mem_entries_iff : (k, value) ∈ r.entries ↔ r.find? k = some value := by
  unfold entries
  -- An entry from the other half of the list never fits, as it has the other sort of key.
  cases k with
  | address index field =>
      simp only [find?, address?, Option.bind_eq_some_iff, OrderedMap.find?_eq_some_iff,
        List.mem_append, List.mem_flatMap, List.mem_map]
      constructor
      · rintro (⟨⟨i, hop⟩, hmem, ⟨f, v⟩, he, heq⟩ | ⟨e, -, heq⟩)
        · cases heq
          exact ⟨hop, hmem, he⟩
        · cases heq
      · rintro ⟨hop, hmem, he⟩
        exact .inl ⟨(index, hop), hmem, (field, value), he, rfl⟩
  | rtt index =>
      simp only [find?, OrderedMap.find?_eq_some_iff, List.mem_append, List.mem_flatMap,
        List.mem_map]
      constructor
      · rintro (⟨hop, -, e, -, heq⟩ | ⟨⟨i, v⟩, hmem, heq⟩)
        · cases heq
        · cases heq
          exact hmem
      · intro hmem
        exact .inr ⟨(index, value), hmem, rfl⟩

theorem nodup_entries (r : Route) : (r.entries.map (·.1)).Nodup := by
  have hkeys : r.entries.map (·.1) =
      (r.hops.toList.flatMap fun hop => hop.2.keys.map (.address hop.1)) ++
        r.rtts.keys.map .rtt := by
    simp [entries, OrderedMap.keys, List.map_flatMap, Function.comp_def]
  rw [hkeys, List.nodup_append]
  refine ⟨List.nodup_flatMap.2 ⟨?_, ?_⟩, ?_, ?_⟩
  · rintro ⟨index, hop⟩ -
    exact hop.nodup_keys.map fun f g h => (address.inj h).2
  · -- Hops with different indices share no key.
    have hne := List.nodup_iff_pairwise_ne.1 r.hops.nodup_keys
    rw [OrderedMap.keys, List.pairwise_map] at hne
    apply hne.imp
    intro a b hab k hka hkb
    obtain ⟨f, -, rfl⟩ := List.mem_map.1 hka
    obtain ⟨g, -, heq⟩ := List.mem_map.1 hkb
    exact hab (address.inj heq).1.symm
  · exact r.rtts.nodup_keys.map fun i j h => rtt.inj h
  · intro k hk l hl heq
    obtain ⟨hop, -, hk⟩ := List.mem_flatMap.1 hk
    obtain ⟨f, -, rfl⟩ := List.mem_map.1 hk
    obtain ⟨i, -, rfl⟩ := List.mem_map.1 hl
    cases heq

/-- Routes whose hops have addresses are the same if all their parts are. -/
theorem eq_of_find? (hr : r.HasAddresses) (hs : s.HasAddresses) (h : ∀ k, r.find? k = s.find? k) :
    r = s := by
  -- A hop is there as soon as it has an address, and no route has a hop without one.
  have hsub : ∀ {r s : Route}, r.HasAddresses → (∀ k, r.find? k = s.find? k) →
      ∀ {index hop}, r.hops.find? index = some hop → s.hops.find? index = some hop := by
    intro r s hr h index hop hhop
    have hfields : ∀ field, hop.find? field = (s.hops.find? index).bind (·.find? field) := by
      intro field
      have hpart := h (.address index field)
      simpa only [find?, address?, hhop, Option.bind_some] using hpart
    cases hother : s.hops.find? index with
    | none =>
        obtain ⟨field, value, hvalue⟩ := hr index hop hhop
        rw [hfields, hother] at hvalue
        cases hvalue
    | some hop' =>
        rw [hother] at hfields
        exact congrArg some (OrderedMap.ext_find? hfields).symm
  have hhops : r.hops = s.hops := by
    apply OrderedMap.ext_find?
    intro index
    apply Option.ext
    intro hop
    exact ⟨hsub hr h, hsub hs fun k => (h k).symm⟩
  have hrtts : r.rtts = s.rtts := OrderedMap.ext_find? fun index => h (.rtt index)
  cases r
  cases s
  cases hhops
  cases hrtts
  rfl

/-! ## Writing a route, and reading it back

What is found under a key is the part that the key spells, as other keys have no form that spells
any. -/

/-- The values of a route under plain keys, among other values. -/
def flattened (r : Route) (others : Values) : Values :=
  OrderedMap.ofList (r.entries.map (fun e => (e.1.text, e.2)) ++ others.toList)

/-- Every part of a route has a key, and every hop an address. -/
structure Writable (r : Route) : Prop where
  parts : ∀ e ∈ r.entries, e.1.IsWritable
  hops : ∀ hop ∈ r.hops.toList, hop.2 ≠ .empty

theorem Writable.hasAddresses (hr : r.Writable) : r.HasAddresses := by
  intro index hop hhop
  have hne := hr.hops _ ((OrderedMap.find?_eq_some_iff _ _ _).1 hhop)
  cases hlist : hop.toList with
  | nil => exact absurd (OrderedMap.ext hlist) hne
  | cons e es =>
      exact ⟨e.1, e.2, (OrderedMap.find?_eq_some_iff _ _ _).2 (hlist ▸ List.mem_cons_self)⟩

/-- Keys of other values are not for parts of hops. -/
def Apart (others : Values) : Prop := ∀ key ∈ others.keys, ¬HasForm key

theorem nodup_flattened (hr : r.Writable) (hothers : Apart others) :
    ((r.entries.map (fun e => (e.1.text, e.2)) ++ others.toList).map (·.1)).Nodup := by
  have htexts : (r.entries.map (fun e => (e.1.text, e.2))).map (·.1) =
      (r.entries.map (·.1)).map text := by
    simp [Function.comp_def]
  have hwritable : ∀ k ∈ r.entries.map (·.1), k.IsWritable := by
    intro k hk
    obtain ⟨e, he, rfl⟩ := List.mem_map.1 hk
    exact hr.parts e he
  rw [List.map_append, htexts, List.nodup_append]
  refine ⟨r.nodup_entries.map_on fun k hk l hl h => text_inj (hwritable k hk) (hwritable l hl) h,
    others.nodup_keys, ?_⟩
  rintro key hkey other hother rfl
  obtain ⟨k, hk, rfl⟩ := List.mem_map.1 hkey
  exact hothers _ hother (spells_text (hwritable k hk)).hasForm

theorem find?_flattened_iff (hr : r.Writable) (hothers : Apart others) :
    (r.flattened others).find? key = some value ↔
      (∃ k, r.find? k = some value ∧ key = k.text) ∨ others.find? key = some value := by
  rw [flattened, OrderedMap.find?_ofList_eq_some_iff (nodup_flattened hr hothers), List.mem_append,
    OrderedMap.find?_eq_some_iff, List.mem_map]
  simp only [← mem_entries_iff]
  apply or_congr_left
  constructor
  · rintro ⟨⟨k, v⟩, hmem, heq⟩
    cases heq
    exact ⟨k, hmem, rfl⟩
  · rintro ⟨k, hmem, rfl⟩
    exact ⟨(k, value), hmem, rfl⟩

/-- Among the values that are written, only the plain key spells a part. -/
theorem eq_text_of_spells (hr : r.Writable) (hothers : Apart others)
    (hkey : (r.flattened others).find? key = some value) (hspells : Spells key k) :
    key = k.text ∧ r.find? k = some value := by
  rcases (find?_flattened_iff hr hothers).1 hkey with ⟨l, hl, rfl⟩ | hother
  · have hwritable := hr.parts (l, value) (mem_entries_iff.2 hl)
    obtain rfl := hspells.eq (spells_text hwritable)
    exact ⟨rfl, hl⟩
  · have hmem : key ∈ others.keys :=
      (OrderedMap.mem_keys_iff _ _).2 (Option.isSome_iff_exists.2 ⟨value, hother⟩)
    exact absurd hspells.hasForm (hothers key hmem)

theorem find?_ofValues_flattened (hr : r.Writable) (hothers : Apart others) (k : HopKey) :
    (ofValues (r.flattened others)).find? k = r.find? k := by
  -- With one key for each part it does not matter which of several would count.
  have honly : ∀ {other}, (r.flattened others).contains other = true → Spells other k →
      other = k.text := by
    intro other hother hspells
    obtain ⟨v, hv⟩ := Option.isSome_iff_exists.1 hother
    exact (eq_text_of_spells hr hothers hv hspells).1
  have hwritten : ∀ {value}, r.find? k = some value →
      (r.flattened others).find? k.text = some value ∧ Spells k.text k := by
    intro value hvalue
    exact ⟨(find?_flattened_iff hr hothers).2 (.inl ⟨k, hvalue, rfl⟩),
      spells_text (hr.parts (k, value) (mem_entries_iff.2 hvalue))⟩
  apply Option.ext
  intro value
  cases k with
  | address index field =>
      refine address?_ofValues_eq_some_iff.trans ⟨?_, ?_⟩
      · rintro ⟨key, hkey, hspells, -⟩
        exact (eq_text_of_spells hr hothers hkey hspells).2
      · intro hvalue
        obtain ⟨hkey, hspells⟩ := hwritten hvalue
        exact ⟨_, hkey, hspells, fun other hother h => (honly hother h).le⟩
  | rtt index =>
      refine rtt_ofValues_eq_some_iff.trans ⟨?_, ?_⟩
      · rintro ⟨key, hkey, hspells, -⟩
        exact (eq_text_of_spells hr hothers hkey hspells).2
      · intro hvalue
        obtain ⟨hkey, hspells⟩ := hwritten hvalue
        exact ⟨_, hkey, hspells, fun other hother h => (honly hother h).ge⟩

/-- **A route is read back** from its values under plain keys, none of which is lost. -/
theorem ofValues_flattened (hr : r.Writable) (hothers : Apart others) :
    ofValues (r.flattened others) = r ∧
      (r.flattened others).toList.Perm
        (r.entries.map (fun e => (e.1.text, e.2)) ++ others.toList) ∧
      (ofValues (r.flattened others)).hopCount = r.hops.size ∧
      ∀ index, (ofValues (r.flattened others)).hopAddresses index = r.hops.find? index := by
  have hback : ofValues (r.flattened others) = r :=
    eq_of_find? (hasAddresses_ofValues _) hr.hasAddresses (find?_ofValues_flattened hr hothers)
  refine ⟨hback, OrderedMap.toList_ofList_perm (nodup_flattened hr hothers), ?_, fun index => ?_⟩
  · rw [hback, hopCount]
  · rw [hback, hopAddresses]

/-- A route with fields that look like parts of keys, and a time of a hop without an address. -/
def misleading : Route where
  hops := OrderedMap.ofList [
    (1, OrderedMap.ofList [("1_addr_2", "10.0.0.1"), ("2_rtt", "10.0.0.2")]),
    (12, OrderedMap.ofList [("_addr_", "*")])]
  rtts := OrderedMap.ofList [(1, "0.5"), (4294967295, "")]

theorem ofValues_flattened_misleading :
    misleading.Writable ∧ Apart (OrderedMap.ofList [("num_hops", "2")]) ∧
      ofValues (misleading.flattened (OrderedMap.ofList [("num_hops", "2")])) = misleading ∧
      (misleading.flattened (OrderedMap.ofList [("num_hops", "2")])).size = 6 := by
  have hr : misleading.Writable := ⟨by decide, by decide⟩
  have hothers : Apart (OrderedMap.ofList [("num_hops", "2")]) := by
    intro key hkey hform
    obtain rfl := List.mem_singleton.1 hkey
    exact absurd hform.prefix_hop (by decide)
  obtain ⟨hback, hperm, -⟩ := ofValues_flattened hr hothers
  exact ⟨hr, hothers, hback, hperm.length_eq⟩

end Route

end NetAudit
