import Mathlib.Data.List.Basic
import Mathlib.Data.List.Induction
import Mathlib.Data.List.Nodup
import Mathlib.Tactic.SplitIfs

/-!
# Maps and sets in insertion order

A map lists its entries in the order their keys were first set, and setting a
key again replaces its value in place. What a map built from a list of pairs
holds for a key is the last value the list gives it.
-/

namespace FactoryServer.InsertionMaps

variable {K A : Type} [DecidableEq K]

/-- `map.set(key, value)`. -/
def setEntry (entries : List (K × A)) (key : K) (value : A) : List (K × A) :=
  if key ∈ entries.map Prod.fst then
    entries.map fun entry => if entry.1 = key then (key, value) else entry
  else entries ++ [(key, value)]

/-- The map that setting the pairs in order builds. -/
def mapOf (pairs : List (K × A)) : List (K × A) :=
  pairs.foldl (fun entries pair => setEntry entries pair.1 pair.2) []

/-- `set.add(item)`. -/
def addItem (items : List K) (item : K) : List K :=
  if item ∈ items then items else items ++ [item]

/-- The set that adding the items in order builds. -/
def setOf (items : List K) : List K := items.foldl addItem []

/-- The last value a list of pairs gives a key. -/
def lastOf (key : K) (pairs : List (K × A)) : Option A :=
  pairs.foldl (fun found pair => if pair.1 = key then some pair.2 else found) none

@[simp] theorem mapOf_nil : mapOf ([] : List (K × A)) = [] := rfl

/-- A list around one of its items. -/
theorem split_at {A : Type} {items : List A} {i : ℕ} {item : A} (h : items[i]? = some item) :
    items = items.take i ++ item :: items.drop (i + 1) ∧
      items.eraseIdx i = items.take i ++ items.drop (i + 1) := by
  obtain ⟨hi, rfl⟩ := List.getElem?_eq_some_iff.mp h
  exact ⟨by rw [← List.drop_eq_getElem_cons hi, List.take_append_drop],
    List.eraseIdx_eq_take_drop_succ items i⟩

/-- A list around an item that is replaced. -/
theorem set_at {A : Type} {items : List A} {i : ℕ} {item : A} (h : items[i]? = some item)
    (other : A) : items.set i other = items.take i ++ other :: items.drop (i + 1) := by
  obtain ⟨hi, rfl⟩ := List.getElem?_eq_some_iff.mp h
  rw [List.set_eq_take_append_cons_drop, if_pos hi]

theorem mapOf_append (pairs more : List (K × A)) :
    mapOf (pairs ++ more) =
      more.foldl (fun entries pair => setEntry entries pair.1 pair.2) (mapOf pairs) :=
  List.foldl_append

theorem mapOf_concat (pairs : List (K × A)) (pair : K × A) :
    mapOf (pairs ++ [pair]) = setEntry (mapOf pairs) pair.1 pair.2 :=
  mapOf_append pairs [pair]

theorem lastOf_concat (key : K) (pairs : List (K × A)) (pair : K × A) :
    lastOf key (pairs ++ [pair]) = if pair.1 = key then some pair.2 else lastOf key pairs := by
  simp [lastOf, List.foldl_append]

theorem setOf_append (items more : List K) :
    setOf (items ++ more) = more.foldl addItem (setOf items) :=
  List.foldl_append

theorem mem_setEntry {entries : List (K × A)} {key : K} {value : A} {entry : K × A} :
    entry ∈ setEntry entries key value ↔
      entry = (key, value) ∨ entry ∈ entries ∧ entry.1 ≠ key := by
  unfold setEntry
  split_ifs with h
  · constructor
    · intro hm
      obtain ⟨old, hold, rfl⟩ := List.mem_map.mp hm
      by_cases hk : old.1 = key
      · exact Or.inl (if_pos hk)
      · rw [if_neg hk]
        exact Or.inr ⟨hold, hk⟩
    · rintro (rfl | ⟨hm, hk⟩)
      · obtain ⟨old, hold, hk⟩ := List.mem_map.mp h
        exact List.mem_map.mpr ⟨old, hold, if_pos hk⟩
      · exact List.mem_map.mpr ⟨entry, hm, if_neg hk⟩
  · rw [List.mem_append, List.mem_singleton]
    constructor
    · rintro (hm | rfl)
      · exact Or.inr ⟨hm, fun hk => h (hk ▸ List.mem_map_of_mem hm)⟩
      · exact Or.inl rfl
    · rintro (rfl | ⟨hm, -⟩)
      · exact Or.inr rfl
      · exact Or.inl hm

theorem nodup_setEntry {entries : List (K × A)} (h : (entries.map Prod.fst).Nodup) (key : K)
    (value : A) : ((setEntry entries key value).map Prod.fst).Nodup := by
  unfold setEntry
  split_ifs with hk
  · have hkeys : (entries.map fun entry => if entry.1 = key then (key, value) else entry).map
        Prod.fst = entries.map Prod.fst := by
      rw [List.map_map]
      apply List.map_congr_left
      intro entry _
      simp only [Function.comp_apply]
      split_ifs with he
      · exact he.symm
      · rfl
    rw [hkeys]
    exact h
  · rw [List.map_append, List.nodup_append]
    refine ⟨h, by simp, ?_⟩
    intro a ha b hb
    rw [List.map_singleton, List.mem_singleton] at hb
    rintro rfl
    have hkey : a = key := hb
    exact hk (hkey ▸ ha)

/-- A map has one entry for a key. -/
theorem nodup_mapOf (pairs : List (K × A)) : ((mapOf pairs).map Prod.fst).Nodup := by
  induction pairs using List.reverseRecOn with
  | nil => simp
  | append_singleton pairs pair ih =>
    rw [mapOf_concat]
    exact nodup_setEntry ih _ _

/-- A map holds the last value given to each key. -/
theorem mem_mapOf {pairs : List (K × A)} {key : K} {value : A} :
    (key, value) ∈ mapOf pairs ↔ lastOf key pairs = some value := by
  induction pairs using List.reverseRecOn with
  | nil => simp [lastOf]
  | append_singleton pairs pair ih =>
    rw [mapOf_concat, mem_setEntry, lastOf_concat]
    by_cases hk : pair.1 = key
    · rw [if_pos hk]
      constructor
      · rintro (he | ⟨-, hne⟩)
        · rw [(Prod.mk.inj he).2]
        · exact absurd hk.symm hne
      · intro hv
        rw [← hk, Option.some.inj hv]
        exact Or.inl rfl
    · rw [if_neg hk, ← ih]
      constructor
      · rintro (he | ⟨hm, -⟩)
        · exact absurd (Prod.mk.inj he).1.symm hk
        · exact hm
      · exact fun hm => Or.inr ⟨hm, Ne.symm hk⟩

theorem mem_of_lastOf {pairs : List (K × A)} {key : K} {value : A}
    (h : lastOf key pairs = some value) : (key, value) ∈ pairs := by
  induction pairs using List.reverseRecOn with
  | nil => simp [lastOf] at h
  | append_singleton pairs pair ih =>
    rw [lastOf_concat] at h
    split_ifs at h with hk
    · rw [List.mem_append, List.mem_singleton]
      right
      rw [← hk, ← Option.some.inj h]
    · exact List.mem_append_left _ (ih h)

theorem lastOf_eq_none {pairs : List (K × A)} {key : K} :
    lastOf key pairs = none ↔ key ∉ pairs.map Prod.fst := by
  induction pairs using List.reverseRecOn with
  | nil => simp [lastOf]
  | append_singleton pairs pair ih =>
    rw [lastOf_concat, List.map_append, List.mem_append, not_or, ← ih]
    by_cases hk : pair.1 = key
    · simp [hk]
    · simp [hk, Ne.symm hk]

theorem mem_pairs_of_mem_mapOf {pairs : List (K × A)} {entry : K × A} (h : entry ∈ mapOf pairs) :
    entry ∈ pairs :=
  mem_of_lastOf (mem_mapOf.mp h)

/-- What a set has after one more item. -/
theorem mem_addItem {items : List K} {item added : K} :
    item ∈ addItem items added ↔ item ∈ items ∨ item = added := by
  unfold addItem
  split_ifs with h
  · exact ⟨Or.inl, fun hin => hin.elim id fun heq => heq ▸ h⟩
  · rw [List.mem_append, List.mem_singleton]

@[simp] theorem mem_setOf {items : List K} {item : K} : item ∈ setOf items ↔ item ∈ items := by
  induction items using List.reverseRecOn with
  | nil => simp [setOf]
  | append_singleton items added ih =>
    have hstep : setOf (items ++ [added]) = addItem (setOf items) added := setOf_append items [added]
    rw [hstep, List.mem_append, List.mem_singleton, ← ih, mem_addItem]

theorem nodup_setOf (items : List K) : (setOf items).Nodup := by
  induction items using List.reverseRecOn with
  | nil => simp [setOf]
  | append_singleton items added ih =>
    have hstep : setOf (items ++ [added]) = addItem (setOf items) added := setOf_append items [added]
    rw [hstep]
    unfold addItem
    split_ifs with h
    · exact ih
    · rw [List.nodup_append]
      refine ⟨ih, by simp, ?_⟩
      intro a ha b hb
      rw [List.mem_singleton.mp hb]
      rintro rfl
      exact h ha

/-- Filtering a set is filtering the items. -/
theorem filter_setOf (p : K → Bool) (items : List K) :
    (setOf items).filter p = setOf (items.filter p) := by
  induction items using List.reverseRecOn with
  | nil => rfl
  | append_singleton items added ih =>
    have hstep : setOf (items ++ [added]) = addItem (setOf items) added := setOf_append items [added]
    rw [hstep, List.filter_append, List.filter_cons, List.filter_nil]
    unfold addItem
    by_cases hp : p added = true
    · have hfilter : setOf (items.filter p ++ [added]) =
          addItem (setOf (items.filter p)) added := setOf_append _ [added]
      rw [if_pos hp, hfilter, ← ih]
      unfold addItem
      have hmem : added ∈ (setOf items).filter p ↔ added ∈ setOf items := by
        rw [List.mem_filter]
        exact and_iff_left hp
      simp only [hmem]
      split_ifs
      · rfl
      · rw [List.filter_append, List.filter_cons, if_pos hp, List.filter_nil]
    · rw [if_neg hp, List.append_nil, ← ih]
      split_ifs
      · rfl
      · rw [List.filter_append, List.filter_cons, if_neg hp, List.filter_nil, List.append_nil]

/-- Two entries of a map with one key are the same entry. -/
theorem entry_ext {pairs : List (K × A)} {a b : K × A} (ha : a ∈ mapOf pairs) (hb : b ∈ mapOf pairs)
    (h : a.1 = b.1) : a = b := by
  obtain ⟨key, value⟩ := a
  obtain ⟨key', value'⟩ := b
  obtain rfl : key = key' := h
  have hvalue := mem_mapOf.mp ha
  rw [mem_mapOf.mp hb] at hvalue
  rw [Option.some.inj hvalue]

/-- Where keys do not mix entries that pass with entries that do not, filtering
the map is filtering the pairs. -/
theorem filter_mapOf {pairs : List (K × A)} {p : K × A → Bool}
    (h : ∀ a ∈ pairs, ∀ b ∈ pairs, a.1 = b.1 → p a = p b) :
    (mapOf pairs).filter p = mapOf (pairs.filter p) := by
  induction pairs using List.reverseRecOn with
  | nil => rfl
  | append_singleton pairs pair ih =>
    have hpairs := ih fun a ha b hb =>
      h a (List.mem_append_left _ ha) b (List.mem_append_left _ hb)
    have hsame : ∀ entry ∈ mapOf pairs, entry.1 = pair.1 → p entry = p pair := by
      intro entry he hk
      exact h entry (List.mem_append_left _ (mem_pairs_of_mem_mapOf he)) pair (by simp) hk
    rw [mapOf_concat, List.filter_append, List.filter_cons, List.filter_nil]
    by_cases hp : p pair = true
    · rw [if_pos hp, mapOf_concat, ← hpairs]
      unfold setEntry
      have hmem : pair.1 ∈ ((mapOf pairs).filter p).map Prod.fst ↔
          pair.1 ∈ (mapOf pairs).map Prod.fst := by
        constructor
        · intro hm
          obtain ⟨entry, he, hk⟩ := List.mem_map.mp hm
          exact List.mem_map.mpr ⟨entry, (List.mem_filter.mp he).1, hk⟩
        · intro hm
          obtain ⟨entry, he, hk⟩ := List.mem_map.mp hm
          exact List.mem_map.mpr ⟨entry, List.mem_filter.mpr ⟨he, by rw [hsame entry he hk, hp]⟩, hk⟩
      simp only [hmem]
      split_ifs
      · rw [List.filter_map]
        congr 1
        apply List.filter_congr
        intro entry he
        simp only [Function.comp_apply]
        split_ifs with hk
        · rw [hsame entry he hk]
        · rfl
      · rw [List.filter_append, List.filter_cons, if_pos hp, List.filter_nil]
    · rw [if_neg hp, List.append_nil, ← hpairs]
      unfold setEntry
      split_ifs
      · rw [List.filter_map]
        have hdrop : ∀ entry ∈ (mapOf pairs).filter (p ∘ fun entry =>
            if entry.1 = pair.1 then (pair.1, pair.2) else entry),
            (if entry.1 = pair.1 then (pair.1, pair.2) else entry) = entry := by
          intro entry he
          obtain ⟨-, hpass⟩ := List.mem_filter.mp he
          simp only [Function.comp_apply] at hpass
          split_ifs with hk
          · rw [if_pos hk] at hpass
            exact absurd hpass hp
          · rfl
        rw [List.map_congr_left hdrop, List.map_id']
        apply List.filter_congr
        intro entry he
        simp only [Function.comp_apply]
        split_ifs with hk
        · exact (hsame entry he hk).symm
        · rfl
      · rw [List.filter_append, List.filter_cons, if_neg hp, List.filter_nil, List.append_nil]

/-- Where keys are distinct, one entry has a key. -/
theorem filter_key {entries : List (K × A)} (hn : (entries.map Prod.fst).Nodup) {key : K}
    {value : A} (hm : (key, value) ∈ entries) :
    (entries.filter fun entry => entry.1 = key) = [(key, value)] := by
  induction entries with
  | nil => cases hm
  | cons first rest ih =>
    obtain ⟨hfresh, hrest⟩ := List.nodup_cons.mp hn
    rcases List.mem_cons.mp hm with rfl | hm
    · have hnone : (rest.filter fun entry => entry.1 = key) = [] := by
        rw [List.filter_eq_nil_iff]
        intro entry he
        have hne : entry.1 ≠ key := by
          intro hk
          exact hfresh (List.mem_map.mpr ⟨entry, he, hk⟩)
        simpa using hne
      rw [List.filter_cons, if_pos (by simp), hnone]
    · have hne : first.1 ≠ key := by
        intro he
        exact hfresh (List.mem_map.mpr ⟨(key, value), hm, he.symm⟩)
      rw [List.filter_cons, if_neg (by simpa using hne), ih hrest hm]

/-- The entries of a map with one key. -/
theorem filter_key_mapOf (pairs : List (K × A)) (key : K) :
    ((mapOf pairs).filter fun entry => entry.1 = key) =
      ((lastOf key pairs).map fun value => (key, value)).toList := by
  cases hlast : lastOf key pairs with
  | none =>
    rw [Option.map_none, Option.toList_none, List.filter_eq_nil_iff]
    intro entry he hk
    have hkey : entry.1 = key := by simpa using hk
    have hsome := mem_mapOf.mp (show (key, entry.2) ∈ mapOf pairs from hkey ▸ he)
    rw [hlast] at hsome
    cases hsome
  | some value => exact filter_key (nodup_mapOf pairs) (mem_mapOf.mpr hlast)

/-- A value replaces those with its key, or comes behind all others. -/
def setValue (key : A → K) (values : List A) (value : A) : List A :=
  if ∃ old ∈ values, key old = key value then
    values.map fun old => if key old = key value then value else old
  else values ++ [value]

/-- A map of values by their own keys is the list of its values. -/
theorem mapOf_values (key : A → K) (values : List A) :
    (mapOf (values.map fun value => (key value, value))).map Prod.snd =
      values.foldl (setValue key) [] := by
  suffices h : mapOf (values.map fun value => (key value, value)) =
      (values.foldl (setValue key) []).map fun value => (key value, value) by
    rw [h, List.map_map]
    exact List.map_id _
  induction values using List.reverseRecOn with
  | nil => rfl
  | append_singleton values value ih =>
    rw [List.map_append, List.map_singleton, mapOf_concat, ih, List.foldl_append,
      List.foldl_cons, List.foldl_nil]
    generalize values.foldl (setValue key) [] = before
    unfold setEntry setValue
    have hkeys : key value ∈ (before.map fun value => (key value, value)).map Prod.fst ↔
        ∃ old ∈ before, key old = key value := by simp
    simp only [hkeys]
    split_ifs
    · rw [List.map_map, List.map_map]
      refine List.map_congr_left fun old _ => ?_
      simp only [Function.comp_apply]
      split_ifs <;> rfl
    · rw [List.map_append, List.map_singleton]

/-- Two keys that tell the values apart alike keep the same values. -/
theorem mapOf_rekey {L : Type} [DecidableEq L] {key : A → K} {other : A → L} {values : List A}
    (h : ∀ a ∈ values, ∀ b ∈ values, key a = key b ↔ other a = other b) :
    (mapOf (values.map fun value => (key value, value))).map Prod.snd =
      (mapOf (values.map fun value => (other value, value))).map Prod.snd := by
  rw [mapOf_values, mapOf_values]
  suffices hboth : values.foldl (setValue key) [] = values.foldl (setValue other) [] ∧
      ∀ value ∈ values.foldl (setValue key) [], value ∈ values from hboth.1
  induction values using List.reverseRecOn with
  | nil => exact ⟨rfl, fun _ hin => hin⟩
  | append_singleton values value ih =>
    obtain ⟨hsame, hin⟩ := ih fun a ha b hb =>
      h a (List.mem_append_left _ ha) b (List.mem_append_left _ hb)
    rw [List.foldl_append, List.foldl_append, ← hsame, List.foldl_cons, List.foldl_nil,
      List.foldl_cons, List.foldl_nil]
    generalize values.foldl (setValue key) [] = before at hin
    have hvalue : ∀ old ∈ before, key old = key value ↔ other old = other value :=
      fun old hold => h old (List.mem_append_left _ (hin old hold)) value (by simp)
    have hexists : (∃ old ∈ before, key old = key value) ↔
        ∃ old ∈ before, other old = other value :=
      exists_congr fun old => and_congr_right fun hold => hvalue old hold
    unfold setValue
    refine ⟨?_, ?_⟩
    · simp only [hexists]
      split_ifs
      · refine List.map_congr_left fun old hold => ?_
        simp only [hvalue old hold]
      · rfl
    · intro item hitem
      split_ifs at hitem
      · obtain ⟨old, hold, rfl⟩ := List.mem_map.mp hitem
        split_ifs
        · exact List.mem_append_right _ List.mem_cons_self
        · exact List.mem_append_left _ (hin old hold)
      · rcases List.mem_append.mp hitem with hold | hnew
        · exact List.mem_append_left _ (hin item hold)
        · exact List.mem_append_right _ hnew

end FactoryServer.InsertionMaps
