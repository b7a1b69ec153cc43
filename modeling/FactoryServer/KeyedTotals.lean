import Mathlib.Algebra.BigOperators.Group.List.Basic
import FactoryServer.InsertionMaps

/-!
# Totals of values kept by key

Values with a key each, at most one for a key, in the order the keys came. A value
that comes for a key already there is merged into the one that is there. A measure
that adds up over merging is conserved, and the number of values grows by the keys
that are new.
-/

namespace FactoryServer.KeyedTotals

open InsertionMaps

variable {K A M : Type} [DecidableEq K] [AddCommMonoid M]

/-- The value of a key. -/
def valueOf (key : A → K) (values : List A) (k : K) : Option A :=
  values.find? fun value => key value = k

/-- Put a value to the others, merged into the one that has its key. -/
def mergeInto (key : A → K) (merge : A → A → A) (values : List A) (value : A) : List A :=
  setValue key values (((valueOf key values (key value)).map fun old => merge old value).getD value)

/-- Put several values to the others, one after the other. -/
def mergeAll (key : A → K) (merge : A → A → A) (values added : List A) : List A :=
  added.foldl (mergeInto key merge) values

/-- The values whose key is new. -/
def newcomers (key : A → K) (values added : List A) : List A :=
  added.filter fun value => key value ∉ values.map key

/-- The total of a measure. -/
def total (f : A → M) (values : List A) : M := (values.map f).sum

@[simp] theorem total_nil (f : A → M) : total f ([] : List A) = 0 := rfl

@[simp] theorem total_cons (f : A → M) (value : A) (values : List A) :
    total f (value :: values) = f value + total f values := by
  simp [total]

@[simp] theorem total_append (f : A → M) (values more : List A) :
    total f (values ++ more) = total f values + total f more := by
  simp [total]

/-- Taking one value out takes its measure out. -/
theorem total_eraseIdx {f : A → M} {values : List A} {i : ℕ} {value : A}
    (h : values[i]? = some value) : total f (values.eraseIdx i) + f value = total f values := by
  obtain ⟨hsplit, herase⟩ := split_at h
  conv_rhs => rw [hsplit]
  rw [herase, total_append, total_append, total_cons, add_assoc,
    add_comm (total f (values.drop (i + 1)))]

variable {key : A → K} {merge : A → A → A} {f : A → M} {values : List A}

omit [AddCommMonoid M] in
/-- A replacement touches no value of another key. -/
theorem map_replace_of_not_mem {value : A} {k : K} (h : k ∉ values.map key) :
    (values.map fun old => if key old = k then value else old) = values := by
  refine (List.map_congr_left fun old hold => ?_).trans (List.map_id values)
  exact if_neg fun hk => h (List.mem_map.mpr ⟨old, hold, hk⟩)

omit [AddCommMonoid M] in
theorem valueOf_eq_none {k : K} : valueOf key values k = none ↔ k ∉ values.map key := by
  simp [valueOf]

omit [AddCommMonoid M] in
theorem mem_of_valueOf {k : K} {old : A} (h : valueOf key values k = some old) : old ∈ values :=
  List.mem_of_find?_eq_some h

omit [AddCommMonoid M] in
theorem key_of_valueOf {k : K} {old : A} (h : valueOf key values k = some old) : key old = k := by
  simpa using List.find?_some h

omit [AddCommMonoid M] in
/-- A value of a new key is put at the end. -/
theorem setValue_of_none {value : A} (h : valueOf key values (key value) = none) :
    setValue key values value = values ++ [value] := by
  refine if_neg ?_
  rintro ⟨old, hin, hk⟩
  exact valueOf_eq_none.mp h (hk ▸ List.mem_map_of_mem hin)

/-- Replacing the value of a key changes a total by what the new value has more. -/
theorem total_setValue {old value : A} {d : M} (hn : (values.map key).Nodup)
    (hold : valueOf key values (key value) = some old) (hf : f value = f old + d) :
    total f (setValue key values value) = total f values + d := by
  have hmem : ∃ v ∈ values, key v = key value := ⟨old, mem_of_valueOf hold, key_of_valueOf hold⟩
  rw [setValue, if_pos hmem]
  clear hmem
  induction values with
  | nil => cases hold
  | cons first rest ih =>
    obtain ⟨hfresh, hrest⟩ := List.nodup_cons.mp (by simpa using hn :
      (key first :: rest.map key).Nodup)
    rw [List.map_cons, total_cons, total_cons]
    by_cases hk : key first = key value
    · have hfirst : first = old := by
        simpa [valueOf, List.find?_cons, hk] using hold
      rw [if_pos hk, map_replace_of_not_mem (hk ▸ hfresh), hf, hfirst]
      exact add_right_comm (f old) d (total f rest)
    · have hlater : valueOf key rest (key value) = some old := by
        simpa [valueOf, List.find?_cons, hk] using hold
      rw [if_neg hk, ih hrest hlater, add_assoc]

/-- Merging a value in adds its measure. -/
theorem total_mergeInto (hmerge : ∀ a b, f (merge a b) = f a + f b)
    (hkey : ∀ a b, key (merge a b) = key a) (hn : (values.map key).Nodup) (value : A) :
    total f (mergeInto key merge values value) = total f values + f value := by
  unfold mergeInto
  cases hold : valueOf key values (key value) with
  | none =>
    rw [Option.map_none, Option.getD_none, setValue_of_none hold]
    simp
  | some old =>
    have hmerged : key (merge old value) = key value :=
      (hkey old value).trans (key_of_valueOf hold)
    rw [Option.map_some, Option.getD_some]
    exact total_setValue hn (hmerged.symm ▸ hold) (hmerge old value)

omit [AddCommMonoid M] in
/-- The keys after a value is put. -/
theorem keys_setValue (value : A) :
    (setValue key values value).map key = addItem (values.map key) (key value) := by
  have hiff : (∃ old ∈ values, key old = key value) ↔ key value ∈ values.map key := by simp
  unfold setValue addItem
  by_cases hin : key value ∈ values.map key
  · rw [if_pos (hiff.mpr hin), if_pos hin, List.map_map]
    refine List.map_congr_left fun old _ => ?_
    simp only [Function.comp_apply]
    split_ifs with hk
    · exact hk.symm
    · rfl
  · rw [if_neg fun h => hin (hiff.mp h), if_neg hin, List.map_append, List.map_singleton]

omit [AddCommMonoid M] in
/-- One value for a key stays one value for a key. -/
theorem nodup_setValue (hn : (values.map key).Nodup) (value : A) :
    ((setValue key values value).map key).Nodup := by
  rw [keys_setValue]
  unfold addItem
  split_ifs with hin
  · exact hn
  · exact List.nodup_append.mpr ⟨hn, by simp, fun a ha b hb h =>
      hin (by rw [← List.mem_singleton.mp hb, ← h]; exact ha)⟩

omit [AddCommMonoid M] in
/-- The keys after a value is merged in. -/
theorem keys_mergeInto (hkey : ∀ a b, key (merge a b) = key a) (value : A) :
    (mergeInto key merge values value).map key = addItem (values.map key) (key value) := by
  have hput : key (((valueOf key values (key value)).map fun old => merge old value).getD value) =
      key value := by
    cases hold : valueOf key values (key value) with
    | none => rfl
    | some old => exact (hkey old value).trans (key_of_valueOf hold)
  rw [mergeInto, keys_setValue, hput]

omit [AddCommMonoid M] in
theorem nodup_mergeAll (hn : (values.map key).Nodup) (added : List A) :
    ((mergeAll key merge values added).map key).Nodup := by
  induction added generalizing values with
  | nil => exact hn
  | cons value rest ih => exact ih (nodup_setValue hn _)

/-- Merging several values in adds their total. -/
theorem total_mergeAll (hmerge : ∀ a b, f (merge a b) = f a + f b)
    (hkey : ∀ a b, key (merge a b) = key a) (hn : (values.map key).Nodup) (added : List A) :
    total f (mergeAll key merge values added) = total f values + total f added := by
  induction added generalizing values with
  | nil => simp [mergeAll]
  | cons value rest ih =>
    have hrest : total f (mergeAll key merge (mergeInto key merge values value) rest) =
        total f (mergeInto key merge values value) + total f rest := ih (nodup_setValue hn _)
    rw [total_mergeInto hmerge hkey hn] at hrest
    rw [total_cons, ← add_assoc]
    exact hrest

omit [AddCommMonoid M] in
theorem newcomers_eq_self {added : List A} (h : ∀ value ∈ added, key value ∉ values.map key) :
    newcomers key values added = added :=
  List.filter_eq_self.mpr fun value hin => decide_eq_true (h value hin)

omit [AddCommMonoid M] in
/-- The number of values grows by those whose key is new. -/
theorem length_mergeAll (hkey : ∀ a b, key (merge a b) = key a) {added : List A}
    (hn : (added.map key).Nodup) :
    (mergeAll key merge values added).length =
      values.length + (newcomers key values added).length := by
  induction added generalizing values with
  | nil => simp [mergeAll, newcomers]
  | cons value rest ih =>
    obtain ⟨hfresh, hrest⟩ := List.nodup_cons.mp (by simpa using hn :
      (key value :: rest.map key).Nodup)
    have hkeys : (mergeInto key merge values value).map key =
        addItem (values.map key) (key value) := keys_mergeInto hkey value
    have hlater : newcomers key (mergeInto key merge values value) rest =
        newcomers key values rest := by
      refine List.filter_congr fun other hin => ?_
      have hne : key other ≠ key value := by
        intro h
        exact hfresh (h ▸ List.mem_map_of_mem hin)
      rw [hkeys]
      unfold addItem
      split_ifs <;> simp [hne]
    have hlength : (mergeInto key merge values value).length =
        values.length + if key value ∈ values.map key then 0 else 1 := by
      have h := congrArg List.length hkeys
      rw [List.length_map] at h
      rw [h]
      unfold addItem
      split_ifs <;> simp
    have hall := @ih (mergeInto key merge values value) hrest
    rw [hlater, hlength] at hall
    refine hall.trans ?_
    simp only [newcomers, List.filter_cons]
    by_cases hin : key value ∈ values.map key
    · rw [if_pos hin, if_neg (by simpa using hin), Nat.add_zero]
    · rw [if_neg hin, if_pos (by simpa using hin), List.length_cons]
      omega

end FactoryServer.KeyedTotals
