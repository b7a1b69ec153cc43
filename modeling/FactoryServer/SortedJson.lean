import FactoryServer.JsonValue
import FactoryServer.TextCodes

/-!
# JSON values with sorted keys

Sorting the keys of every object of a value forgets their order and nothing else: two
values whose objects have each key once are sorted to the same value exactly when they
are equal up to the order of object keys at every depth.
-/

namespace FactoryServer.SortedJson

open JsonValue TextCodes

/-! ## Sorting -/

/-- The number of a key that is an array index in its decimal form. -/
def arrayIndex (key : String) : Option ℕ :=
  key.toNat?.filter fun n => toString n = key ∧ n < 4294967295

/-- `Object.fromEntries` of entries with different keys: an object enumerates its array
indices first, in ascending order. -/
def fromEntries (entries : List (String × Json)) : List (String × Json) :=
  (entries.filter fun entry => (arrayIndex entry.1).isSome).mergeSort
      (fun a b => (arrayIndex a.1).getD 0 ≤ (arrayIndex b.1).getD 0) ++
    entries.filter fun entry => !(arrayIndex entry.1).isSome

/-- `keys.sort()`, with the values of the keys. -/
def sortEntries (entries : List (String × Json)) : List (String × Json) :=
  entries.mergeSort fun a b => notAfter a.1.toList b.1.toList

mutual

/-- `sorted`. -/
def sorted : Json → Json
  | .arr items => .arr (sortedItems items)
  | .obj fields => .obj (fromEntries (sortEntries (sortedFields fields)))
  | .null => .null
  | .bool b => .bool b
  | .num n => .num n
  | .str s => .str s

/-- `items.map(sorted)`. -/
def sortedItems : List Json → List Json
  | [] => []
  | item :: rest => sorted item :: sortedItems rest

/-- The properties with their values sorted. -/
def sortedFields : List (String × Json) → List (String × Json)
  | [] => []
  | (key, value) :: rest => (key, sorted value) :: sortedFields rest

end

/-! ## The order of keys -/

/-- Equal up to the order of object keys at every depth. -/
inductive Reordered : Json → Json → Prop where
  /-- The properties of an object in another order. -/
  | fields {these others : List (String × Json)} (h : these.Perm others) :
      Reordered (.obj these) (.obj others)
  /-- In the value of a property. -/
  | field (front rest : List (String × Json)) (key : String) {value other : Json}
      (h : Reordered value other) :
      Reordered (.obj (front ++ (key, value) :: rest)) (.obj (front ++ (key, other) :: rest))
  /-- In an element of an array. -/
  | item (front rest : List Json) {value other : Json} (h : Reordered value other) :
      Reordered (.arr (front ++ value :: rest)) (.arr (front ++ other :: rest))
  | refl (value : Json) : Reordered value value
  | symm {value other : Json} (h : Reordered value other) : Reordered other value
  | trans {value other last : Json} (h : Reordered value other) (h' : Reordered other last) :
      Reordered value last

mutual

/-- Every object of the value has each key once. -/
def Distinct : Json → Prop
  | .arr items => DistinctItems items
  | .obj fields => (fields.map Prod.fst).Nodup ∧ DistinctFields fields
  | _ => True

/-- Every element has distinct keys. -/
def DistinctItems : List Json → Prop
  | [] => True
  | item :: rest => Distinct item ∧ DistinctItems rest

/-- Every property has distinct keys. -/
def DistinctFields : List (String × Json) → Prop
  | [] => True
  | (_, value) :: rest => Distinct value ∧ DistinctFields rest

end

/-- Every element of an array. -/
theorem distinctItems_iff (items : List Json) :
    DistinctItems items ↔ ∀ item ∈ items, Distinct item := by
  induction items with
  | nil => simp [DistinctItems]
  | cons item rest ih => rw [DistinctItems, ih, List.forall_mem_cons]

/-- Every property of an object. -/
theorem distinctFields_iff (fields : List (String × Json)) :
    DistinctFields fields ↔ ∀ field ∈ fields, Distinct field.2 := by
  induction fields with
  | nil => simp [DistinctFields]
  | cons field rest ih => rw [DistinctFields, ih, List.forall_mem_cons]

/-- The sorted properties are those of the object. -/
theorem fromEntries_perm (entries : List (String × Json)) :
    (fromEntries entries).Perm entries := by
  have hsplit := List.filter_append_perm (fun entry : String × Json =>
    (arrayIndex entry.1).isSome) entries
  rw [fromEntries]
  exact ((List.mergeSort_perm _ _).append_right _).trans hsplit

/-- Every property with its value sorted. -/
theorem sortedFields_eq (fields : List (String × Json)) :
    sortedFields fields = fields.map fun field => (field.1, sorted field.2) := by
  induction fields with
  | nil => rfl
  | cons field rest ih => rw [sortedFields, ih, List.map_cons]

/-- Every element sorted. -/
theorem sortedItems_eq (items : List Json) : sortedItems items = items.map sorted := by
  induction items with
  | nil => rfl
  | cons item rest ih => rw [sortedItems, ih, List.map_cons]

/-- Entries with different keys are sorted to one list, whatever their order was. -/
theorem sortEntries_perm {these others : List (String × Json)} (h : these.Perm others)
    (hkeys : (these.map Prod.fst).Nodup) : sortEntries these = sortEntries others := by
  have hsorted : ∀ entries : List (String × Json), (sortEntries entries).Pairwise fun a b =>
      notAfter a.1.toList b.1.toList = true := by
    intro entries
    refine List.pairwise_mergeSort ?_ (fun a b => notAfter_total a.1.toList b.1.toList) entries
    intro a b c hab hbc
    exact notAfter_trans hab hbc
  refine List.Perm.eq_of_pairwise ?_ (hsorted these) (hsorted others) ?_
  · intro a b ha hb hab hba
    have hsame : a.1 = b.1 := String.toList_injective (notAfter_antisymm hab hba)
    have hthese : a ∈ these := List.mem_mergeSort.mp ha
    have hothers : b ∈ these := h.mem_iff.mpr (List.mem_mergeSort.mp hb)
    exact List.inj_on_of_nodup_map hkeys hthese hothers hsame
  · exact (List.mergeSort_perm these _).trans (h.trans (List.mergeSort_perm others _).symm)

/-! ## Sorting forgets the order of keys -/

mutual

/-- A sorted value is the value up to the order of keys. -/
theorem reordered_sorted : ∀ value : Json, Reordered value (sorted value)
  | .arr items => by
    rw [sorted]
    exact reordered_sortedItems [] items
  | .obj fields => by
    rw [sorted]
    have hperm := (fromEntries_perm (sortEntries (sortedFields fields))).trans
      (List.mergeSort_perm _ _)
    exact (reordered_sortedFields [] fields).trans (.fields hperm.symm)
  | .null => by rw [sorted]; exact .refl _
  | .bool _ => by rw [sorted]; exact .refl _
  | .num _ => by rw [sorted]; exact .refl _
  | .str _ => by rw [sorted]; exact .refl _

/-- The elements are sorted one after the other. -/
theorem reordered_sortedItems : ∀ front items : List Json,
    Reordered (.arr (front ++ items)) (.arr (front ++ sortedItems items))
  | front, [] => .refl _
  | front, item :: rest => by
    have hfirst := Reordered.item front rest (reordered_sorted item)
    have hrest := reordered_sortedItems (front ++ [sorted item]) rest
    rw [List.append_assoc, List.append_assoc] at hrest
    exact hfirst.trans hrest

/-- The properties are sorted one after the other. -/
theorem reordered_sortedFields : ∀ front fields : List (String × Json),
    Reordered (.obj (front ++ fields)) (.obj (front ++ sortedFields fields))
  | front, [] => .refl _
  | front, (key, value) :: rest => by
    have hfirst := Reordered.field front rest key (reordered_sorted value)
    have hrest := reordered_sortedFields (front ++ [(key, sorted value)]) rest
    rw [List.append_assoc, List.append_assoc] at hrest
    exact hfirst.trans hrest

end

/-- Distinct keys do not depend on the order of keys, and values with distinct keys that are
equal up to it are sorted to one value. -/
theorem sorted_of_reordered {value other : Json} (h : Reordered value other) :
    (Distinct value ↔ Distinct other) ∧ (Distinct value → sorted value = sorted other) := by
  induction h with
  | @fields these others hperm =>
    have hkeys := (hperm.map Prod.fst).nodup_iff
    constructor
    · rw [Distinct, Distinct, hkeys, distinctFields_iff, distinctFields_iff]
      exact and_congr_right fun _ =>
        ⟨fun hall field hfield => hall field (hperm.mem_iff.mpr hfield),
          fun hall field hfield => hall field (hperm.mem_iff.mp hfield)⟩
    · intro hdistinct
      rw [Distinct] at hdistinct
      have hsame : sortEntries (sortedFields these) = sortEntries (sortedFields others) := by
        rw [sortedFields_eq, sortedFields_eq]
        refine sortEntries_perm (hperm.map _) ?_
        rw [List.map_map]
        exact hdistinct.1
      rw [sorted, sorted, hsame]
  | @field front rest key value other h ih =>
    constructor
    · simp only [Distinct, distinctFields_iff, List.map_append, List.map_cons,
        List.forall_mem_append, List.forall_mem_cons, ih.1]
    · intro hdistinct
      have hvalue : Distinct value := by
        simp only [Distinct, distinctFields_iff, List.forall_mem_append,
          List.forall_mem_cons] at hdistinct
        exact hdistinct.2.2.1
      rw [sorted, sorted, sortedFields_eq, sortedFields_eq]
      simp only [List.map_append, List.map_cons, ih.2 hvalue]
  | @item front rest value other h ih =>
    constructor
    · simp only [Distinct, distinctItems_iff, List.forall_mem_append, List.forall_mem_cons, ih.1]
    · intro hdistinct
      have hvalue : Distinct value := by
        simp only [Distinct, distinctItems_iff, List.forall_mem_append,
          List.forall_mem_cons] at hdistinct
        exact hdistinct.2.1
      rw [sorted, sorted, sortedItems_eq, sortedItems_eq]
      simp only [List.map_append, List.map_cons, ih.2 hvalue]
  | refl value => exact ⟨Iff.rfl, fun _ => rfl⟩
  | symm h ih => exact ⟨ih.1.symm, fun hdistinct => (ih.2 (ih.1.mpr hdistinct)).symm⟩
  | trans h h' ih ih' =>
    exact ⟨ih.1.trans ih'.1, fun hdistinct =>
      (ih.2 hdistinct).trans (ih'.2 (ih.1.mp hdistinct))⟩

/-- Two values with distinct keys are sorted to one value exactly when they are equal up to the
order of keys. -/
theorem sorted_eq_iff {value other : Json} (h : Distinct value) :
    sorted value = sorted other ↔ Reordered value other := by
  constructor
  · intro hsame
    have hback : Reordered (sorted value) other := hsame ▸ (reordered_sorted other).symm
    exact (reordered_sorted value).trans hback
  · intro hreordered
    exact (sorted_of_reordered hreordered).2 h

/-! ## Properties of a sorted object -/

/-- The property of an object with distinct keys is the one under its key. -/
theorem field_eq_some_iff {fields : List (String × Json)} (hkeys : (fields.map Prod.fst).Nodup)
    (key : String) (value : Json) :
    (Json.obj fields).field? key = some value ↔ (key, value) ∈ fields := by
  rw [Json.field?, Option.map_eq_some_iff]
  constructor
  · rintro ⟨field, hfind, rfl⟩
    have hfound := List.find?_some hfind
    have hkey : field.1 = key := beq_iff_eq.mp hfound
    have hmem := List.mem_of_find?_eq_some hfind
    rwa [← hkey]
  · intro hmem
    cases hfind : fields.find? fun field => field.1 == key with
    | none => exact absurd (beq_self_eq_true key) (List.find?_eq_none.mp hfind _ hmem)
    | some field =>
      have hfound := List.find?_some hfind
      have hkey : field.1 = key := beq_iff_eq.mp hfound
      have hsame := List.inj_on_of_nodup_map hkeys (List.mem_of_find?_eq_some hfind) hmem hkey
      exact ⟨field, rfl, by rw [hsame]⟩

/-- A property of a sorted object is the property of the object, sorted. -/
theorem field_sorted {fields : List (String × Json)} (hkeys : (fields.map Prod.fst).Nodup)
    (key : String) :
    (sorted (.obj fields)).field? key = ((Json.obj fields).field? key).map sorted := by
  have hperm : (fromEntries (sortEntries (sortedFields fields))).Perm
      (fields.map fun field => (field.1, sorted field.2)) := by
    rw [← sortedFields_eq]
    exact (fromEntries_perm _).trans (List.mergeSort_perm _ _)
  have hmapped : ((fields.map fun field => (field.1, sorted field.2)).map Prod.fst).Nodup := by
    rw [List.map_map]
    exact hkeys
  have hsorted := (hperm.map Prod.fst).nodup_iff.mpr hmapped
  ext value
  rw [sorted, field_eq_some_iff hsorted, hperm.mem_iff, List.mem_map, Option.map_eq_some_iff]
  constructor
  · rintro ⟨field, hmem, hpair⟩
    cases hpair
    exact ⟨field.2, (field_eq_some_iff hkeys _ _).mpr hmem, rfl⟩
  · rintro ⟨found, hfound, rfl⟩
    exact ⟨(key, found), (field_eq_some_iff hkeys _ _).mp hfound, rfl⟩

end FactoryServer.SortedJson
