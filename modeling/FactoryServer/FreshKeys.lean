import FactoryServer.InsertionMaps
import Mathlib.Data.List.Count
import Mathlib.Logic.Function.Basic

/-!
# Pairs whose keys are new

Pairs are added to a list of pairs. Where no key is added that was there before, and none
twice, what a key finds is not changed, and no key comes to occur more than once.
-/

namespace FactoryServer.FreshKeys

open InsertionMaps

variable {K A : Type} [DecidableEq K] {base added : List (K × A)}

/-- The keys of the added pairs are new. -/
structure Fresh (base added : List (K × A)) : Prop where
  /-- No key is added twice. -/
  distinct : (added.map Prod.fst).Nodup
  /-- No key was there before. -/
  absent : ∀ key ∈ added.map Prod.fst, key ∉ base.map Prod.fst

omit [DecidableEq K] in
theorem fresh_nil (base : List (K × A)) : Fresh base [] :=
  ⟨List.nodup_nil, fun _ h => absurd h List.not_mem_nil⟩

omit [DecidableEq K] in
/-- One more pair, with a key that is in neither list. -/
theorem Fresh.concat (h : Fresh base added) {key : K} (value : A)
    (hkey : key ∉ (base ++ added).map Prod.fst) : Fresh base (added ++ [(key, value)]) := by
  rw [List.map_append, List.mem_append, not_or] at hkey
  refine ⟨?_, fun other hother => ?_⟩
  · rw [List.map_append]
    refine List.Nodup.append h.distinct (List.nodup_singleton _) fun other hin hsingle => ?_
    rw [List.mem_singleton.mp hsingle] at hin
    exact hkey.2 hin
  · rw [List.map_append] at hother
    rcases List.mem_append.mp hother with hold | hnew
    · exact h.absent other hold
    · rw [List.mem_singleton.mp hnew]
      exact hkey.1

theorem lastOf_append (key : K) (base added : List (K × A)) :
    lastOf key (base ++ added) = (lastOf key added).or (lastOf key base) := by
  induction added using List.reverseRecOn with
  | nil => rw [List.append_nil]; rfl
  | append_singleton added pair ih =>
    rw [← List.append_assoc, lastOf_concat, lastOf_concat, ih]
    split_ifs <;> rfl

/-- A map as a function: a pair is set, if there is one. -/
def setFound (found : K → Option A) : Option (K × A) → K → Option A
  | some pair => Function.update found pair.1 (some pair.2)
  | none => found

theorem setFound_self (found : K → Option A) (key : K) (value : A) :
    setFound found (some (key, value)) key = some value := Function.update_self _ _ _

theorem setFound_of_ne (found : K → Option A) {key other : K} (value : A) (hne : other ≠ key) :
    setFound found (some (key, value)) other = found other := Function.update_of_ne hne _ _

/-- A map that is filled from a list holds the last value for every key. -/
theorem foldl_setFound {E : Type} (entry : E → Option (K × A)) (items : List E) (key : K) :
    items.foldl (fun found item => setFound found (entry item)) (fun _ => none) key =
      lastOf key (items.filterMap entry) := by
  induction items using List.reverseRecOn with
  | nil => rfl
  | append_singleton items item ih =>
    rw [List.foldl_append, List.foldl_cons, List.foldl_nil, List.filterMap_append]
    cases hentry : entry item with
    | none =>
      have hnone : [item].filterMap entry = [] := by
        rw [List.filterMap_cons_none hentry, List.filterMap_nil]
      rw [hnone, List.append_nil]
      exact ih
    | some pair =>
      have hone : [item].filterMap entry = [pair] := by
        rw [List.filterMap_cons_some hentry, List.filterMap_nil]
      rw [hone, lastOf_concat]
      unfold setFound
      dsimp only
      by_cases hkey : pair.1 = key
      · rw [if_pos hkey, ← hkey, Function.update_self]
      · rw [if_neg hkey, Function.update_of_ne (Ne.symm hkey)]
        exact ih

omit [DecidableEq K] in
/-- One more item, whose key is new where it has one. -/
theorem Fresh.concat_item {E : Type} {entry : E → Option (K × A)} {before items : List E}
    (h : Fresh (before.filterMap entry) (items.filterMap entry)) {item : E}
    (hkey : ∀ pair, entry item = some pair →
      pair.1 ∉ ((before ++ items).filterMap entry).map Prod.fst) :
    Fresh (before.filterMap entry) ((items ++ [item]).filterMap entry) := by
  rw [List.filterMap_append]
  cases hentry : entry item with
  | none =>
    rw [List.filterMap_cons_none hentry, List.filterMap_nil, List.append_nil]
    exact h
  | some pair =>
    rw [List.filterMap_cons_some hentry, List.filterMap_nil]
    have hnew := hkey pair hentry
    rw [List.filterMap_append] at hnew
    exact h.concat pair.2 hnew

theorem lastOf_concat_item {E : Type} (entry : E → Option (K × A)) (before items : List E)
    (item : E) (key : K) : lastOf key ((before ++ (items ++ [item])).filterMap entry) =
      setFound (fun key => lastOf key ((before ++ items).filterMap entry)) (entry item) key := by
  rw [← List.append_assoc, List.filterMap_append]
  unfold setFound
  cases hentry : entry item with
  | none =>
    rw [List.filterMap_cons_none hentry, List.filterMap_nil, List.append_nil]
  | some pair =>
    rw [List.filterMap_cons_some hentry, List.filterMap_nil, lastOf_concat]
    dsimp only
    by_cases hkey : pair.1 = key
    · rw [if_pos hkey, ← hkey, Function.update_self]
    · rw [if_neg hkey, Function.update_of_ne (Ne.symm hkey)]

/-- What a key finds is still found. -/
theorem Fresh.lastOf_kept (h : Fresh base added) {key : K} {value : A}
    (hfound : lastOf key base = some value) : lastOf key (base ++ added) = some value := by
  have hthere : key ∈ base.map Prod.fst :=
    List.mem_map.mpr ⟨(key, value), mem_of_lastOf hfound, rfl⟩
  have hnone : lastOf key added = none :=
    lastOf_eq_none.mpr fun hin => h.absent key hin hthere
  rw [lastOf_append, hnone]
  exact hfound

/-- What is found after an addition to one list is found after it in another one that agrees. -/
theorem lastOf_transfer {other : List (K × A)} {key : K} {value : A}
    (hagree : lastOf key base = some value → lastOf key other = some value)
    (hfound : lastOf key (base ++ added) = some value) :
    lastOf key (other ++ added) = some value := by
  rw [lastOf_append] at hfound ⊢
  cases hadded : lastOf key added with
  | some found =>
    rw [hadded] at hfound
    exact hfound
  | none =>
    rw [hadded] at hfound
    exact hagree hfound

/-- How often a key occurs. -/
def occurrences (key : K) (pairs : List (K × A)) : ℕ := (pairs.map Prod.fst).count key

/-- No key comes to occur more than once. -/
theorem Fresh.occurrences_le (h : Fresh base added) (key : K) :
    occurrences key (base ++ added) ≤ max 1 (occurrences key base) := by
  unfold occurrences
  rw [List.map_append, List.count_append]
  by_cases hin : key ∈ added.map Prod.fst
  · have hnone := List.count_eq_zero.mpr (h.absent key hin)
    have hone := List.nodup_iff_count_le_one.mp h.distinct key
    omega
  · have hnone := List.count_eq_zero.mpr hin
    omega

/-- Items that were not there are added once. -/
theorem count_append_le {items more : List K} (hmore : more.Nodup) (hnew : ∀ a ∈ more, a ∉ items)
    (a : K) : (items ++ more).count a ≤ max 1 (items.count a) := by
  rw [List.count_append]
  by_cases hin : a ∈ more
  · have hnone := List.count_eq_zero.mpr (hnew a hin)
    have hone := List.nodup_iff_count_le_one.mp hmore a
    omega
  · have hnone := List.count_eq_zero.mpr hin
    omega

end FactoryServer.FreshKeys
