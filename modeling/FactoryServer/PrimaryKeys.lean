import Mathlib.Data.List.Nodup

/-!
# Tables with a primary key

A table keeps its rows in some order and finds them by their key. An upsert leaves a
row alone when it would not change it; what a table holds afterwards depends on the
keys and rows only, and so does a selection ordered by the key.
-/

namespace FactoryServer.PrimaryKeys

/-- Rows by their primary key. -/
structure Table (κ ρ : Type) where
  /-- The rows as they are stored. -/
  rows : List (κ × ρ)
  /-- No key is there twice. -/
  keys_nodup : (rows.map Prod.fst).Nodup

variable {κ ρ : Type}

/-- A table without rows. -/
def Table.empty : Table κ ρ := ⟨[], List.nodup_nil⟩

/-- `DELETE ... WHERE` on the key. -/
def Table.deleteWhere (t : Table κ ρ) (p : κ → Bool) : Table κ ρ where
  rows := t.rows.filter fun entry => !p entry.1
  keys_nodup := t.keys_nodup.sublist (List.filter_sublist.map Prod.fst)

/-- `SELECT ... WHERE ... ORDER BY` on the key. -/
def Table.select (t : Table κ ρ) (p : κ → Bool) (order : κ → ℕ) : List (κ × ρ) :=
  (t.rows.filter fun entry => p entry.1).mergeSort fun a b => order a.1 ≤ order b.1

/-- `WITH ORDINALITY`, from zero: the items with their places. -/
def withOrdinality {α : Type} (items : List α) : List (ℕ × α) :=
  items.zipIdx.map Prod.swap

theorem mem_withOrdinality {α : Type} {items : List α} {entry : ℕ × α} :
    entry ∈ withOrdinality items ↔ items[entry.1]? = some entry.2 := by
  obtain ⟨i, item⟩ := entry
  simp [withOrdinality, List.mem_zipIdx_iff_getElem?]

theorem keys_withOrdinality {α : Type} (items : List α) :
    (withOrdinality items).map Prod.fst = List.range items.length := by
  rw [withOrdinality, List.map_map, show Prod.fst ∘ Prod.swap = (Prod.snd : α × ℕ → ℕ) from rfl,
    List.zipIdx_map_snd, List.range_eq_range']

theorem withOrdinality_sorted {α : Type} (items : List α) :
    (withOrdinality items).Pairwise fun a b => a.1 < b.1 := by
  have hkeys : ((withOrdinality items).map Prod.fst).Pairwise (· < ·) := by
    rw [keys_withOrdinality]
    exact List.pairwise_lt_range
  exact List.pairwise_map.mp hkeys

/-- Items that are rebuilt at their places are the items. -/
theorem map_withOrdinality {α β : Type} {items : List α} {rebuilt : List β} {f : ℕ × α → β}
    (hlength : items.length = rebuilt.length)
    (heach : ∀ i item, items[i]? = some item → rebuilt[i]? = some (f (i, item))) :
    (withOrdinality items).map f = rebuilt := by
  refine List.ext_getElem? fun i => ?_
  rw [List.getElem?_map, withOrdinality, List.getElem?_map, List.getElem?_zipIdx]
  cases hitem : items[i]? with
  | none =>
    rw [List.getElem?_eq_none (hlength ▸ List.getElem?_eq_none_iff.mp hitem)]
    rfl
  | some item =>
    rw [heach i item hitem]
    simp

variable [DecidableEq κ]

/-- The row under a key. -/
def Table.find (t : Table κ ρ) (key : κ) : Option ρ := t.rows.lookup key

/-- The row under the key is replaced, unless it is the same. -/
def replaceRow [DecidableEq ρ] (key : κ) (row : ρ) (rows : List (κ × ρ)) : List (κ × ρ) :=
  rows.map fun entry => if entry.1 = key ∧ entry.2 ≠ row then (key, row) else entry

theorem keys_replaceRow [DecidableEq ρ] (key : κ) (row : ρ) (rows : List (κ × ρ)) :
    (replaceRow key row rows).map Prod.fst = rows.map Prod.fst := by
  rw [replaceRow, List.map_map]
  refine List.map_congr_left fun entry _ => ?_
  rw [Function.comp_apply]
  split_ifs with h
  · exact h.1.symm
  · rfl

/-- `INSERT ... ON CONFLICT DO UPDATE ... WHERE ... IS DISTINCT FROM`. -/
def Table.upsert [DecidableEq ρ] (t : Table κ ρ) (key : κ) (row : ρ) : Table κ ρ :=
  if h : key ∈ t.rows.map Prod.fst then
    ⟨replaceRow key row t.rows, by rw [keys_replaceRow]; exact t.keys_nodup⟩
  else
    ⟨t.rows ++ [(key, row)], by
      rw [List.map_append]
      exact List.nodup_append.mpr ⟨t.keys_nodup, List.nodup_singleton _, fun k hk k' hk' heq =>
        h (by rw [heq, List.mem_singleton.mp hk'] at hk; exact hk)⟩⟩

/-- The upsert of several rows. -/
def Table.upsertAll [DecidableEq ρ] (t : Table κ ρ) (rows : List (κ × ρ)) : Table κ ρ :=
  rows.foldl (fun t entry => t.upsert entry.1 entry.2) t

/-! ## What is found -/

theorem lookup_cons_eq (first : κ × ρ) (rest : List (κ × ρ)) (key : κ) :
    (first :: rest).lookup key = if key = first.1 then some first.2 else rest.lookup key := by
  rw [List.lookup_cons]
  by_cases hkey : key = first.1
  · rw [if_pos hkey, hkey, beq_self_eq_true]
  · rw [if_neg hkey, beq_false_of_ne hkey]

theorem lookup_eq_none {rows : List (κ × ρ)} {key : κ} (hkey : key ∉ rows.map Prod.fst) :
    rows.lookup key = none := by
  refine List.lookup_eq_none_iff.mpr fun entry hentry => ?_
  have hne : key ≠ entry.1 := fun heq => hkey (heq ▸ List.mem_map_of_mem hentry)
  simp [hne]

/-- A row is found where it is stored. -/
theorem mem_rows_iff (t : Table κ ρ) (entry : κ × ρ) :
    entry ∈ t.rows ↔ t.find entry.1 = some entry.2 := by
  obtain ⟨rows, hnodup⟩ := t
  simp only [Table.find]
  induction rows with
  | nil => simp
  | cons first rest ih =>
    obtain ⟨hfresh, hrest⟩ := List.nodup_cons.mp hnodup
    rw [lookup_cons_eq]
    by_cases hkey : entry.1 = first.1
    · rw [if_pos hkey]
      constructor
      · intro hin
        rcases List.mem_cons.mp hin with rfl | hlater
        · rfl
        · exact absurd (hkey ▸ List.mem_map_of_mem hlater) hfresh
      · intro hrow
        rw [Prod.ext hkey (Option.some.inj hrow).symm]
        exact List.mem_cons_self
    · rw [if_neg hkey, ← ih hrest, List.mem_cons]
      exact ⟨fun h => h.resolve_left fun heq => hkey (by rw [heq]), Or.inr⟩

/-- So it is in a list of rows with distinct keys. -/
theorem mem_iff_lookup {rows : List (κ × ρ)} (hnodup : (rows.map Prod.fst).Nodup)
    (entry : κ × ρ) : entry ∈ rows ↔ rows.lookup entry.1 = some entry.2 :=
  mem_rows_iff ⟨rows, hnodup⟩ entry

theorem lookup_filter_key (p : κ → Bool) (rows : List (κ × ρ)) (key : κ) :
    (rows.filter fun entry => p entry.1).lookup key =
      if p key then rows.lookup key else none := by
  induction rows with
  | nil => simp
  | cons first rest ih =>
    cases hp : p first.1 with
    | true =>
      rw [List.filter_cons_of_pos (by simp [hp]), lookup_cons_eq, lookup_cons_eq, ih]
      by_cases hkey : key = first.1
      · rw [if_pos hkey, if_pos hkey, hkey, hp]
        rfl
      · rw [if_neg hkey, if_neg hkey]
    | false =>
      rw [List.filter_cons_of_neg (by simp [hp]), lookup_cons_eq, ih]
      by_cases hkey : key = first.1
      · rw [hkey, hp]
        rfl
      · rw [if_neg hkey]

/-- A deletion leaves the rows whose keys it does not name. -/
theorem find_deleteWhere (t : Table κ ρ) (p : κ → Bool) (key : κ) :
    (t.deleteWhere p).find key = if p key then none else t.find key := by
  refine (lookup_filter_key (fun k => !p k) t.rows key).trans ?_
  cases p key <;> rfl

variable [DecidableEq ρ]

theorem lookup_replaceRow (key : κ) (row : ρ) (rows : List (κ × ρ)) (other : κ) :
    (replaceRow key row rows).lookup other =
      if other = key then (rows.lookup key).map fun _ => row else rows.lookup other := by
  induction rows with
  | nil => simp [replaceRow]
  | cons first rest ih =>
    have hcons : replaceRow key row (first :: rest) =
        (if first.1 = key ∧ first.2 ≠ row then (key, row) else first) ::
          replaceRow key row rest := rfl
    rw [hcons, lookup_cons_eq, lookup_cons_eq, lookup_cons_eq, ih]
    by_cases hfirst : first.1 = key
    · have hread : (if first.1 = key ∧ first.2 ≠ row then (key, row) else first) = (key, row) := by
        split_ifs with h
        · rfl
        · exact Prod.ext hfirst (by simpa [hfirst] using h)
      rw [hread]
      by_cases hother : other = key
      · simp [hother, hfirst]
      · simp [hother, hfirst]
    · have hread : (if first.1 = key ∧ first.2 ≠ row then (key, row) else first) = first :=
        if_neg fun h => hfirst h.1
      rw [hread]
      by_cases hother : other = key
      · simp [hother, Ne.symm hfirst]
      · simp [hother]

/-- An upsert decides the row under its key. -/
theorem find_upsert (t : Table κ ρ) (key : κ) (row : ρ) (other : κ) :
    (t.upsert key row).find other = if other = key then some row else t.find other := by
  unfold Table.upsert Table.find
  by_cases hstored : key ∈ t.rows.map Prod.fst
  · rw [dif_pos hstored]
    refine (lookup_replaceRow key row t.rows other).trans ?_
    obtain ⟨entry, hentry, hkey⟩ := List.mem_map.mp hstored
    have hfound : t.rows.lookup key = some entry.2 := by
      rw [← hkey]
      exact (mem_rows_iff t entry).mp hentry
    rw [hfound]
    rfl
  · rw [dif_neg hstored]
    rw [List.lookup_append, lookup_cons_eq]
    by_cases hother : other = key
    · rw [if_pos hother, if_pos hother, hother, lookup_eq_none hstored]
      rfl
    · simp [hother]

/-- The upsert of several rows decides the rows under their keys. -/
theorem find_upsertAll (t : Table κ ρ) {rows : List (κ × ρ)}
    (hnodup : (rows.map Prod.fst).Nodup) (key : κ) :
    (t.upsertAll rows).find key = (rows.lookup key).or (t.find key) := by
  unfold Table.upsertAll
  induction rows generalizing t with
  | nil => simp
  | cons first rest ih =>
    obtain ⟨hfresh, hrest⟩ := List.nodup_cons.mp hnodup
    rw [List.foldl_cons, ih _ hrest, find_upsert]
    by_cases hkey : key = first.1
    · rw [lookup_eq_none (hkey ▸ hfresh), if_pos hkey, lookup_cons_eq, if_pos hkey]
      rfl
    · rw [if_neg hkey, lookup_cons_eq, if_neg hkey]

/-- Rows that are upserted while all others are deleted are what the table holds,
whatever it held before. -/
theorem find_rewritten (t : Table κ ρ) {rows : List (κ × ρ)} {p : κ → Bool}
    (hnodup : (rows.map Prod.fst).Nodup)
    (hrest : ∀ key, p key = true ↔ key ∉ rows.map Prod.fst) (key : κ) :
    ((t.upsertAll rows).deleteWhere p).find key = rows.lookup key := by
  rw [find_deleteWhere, find_upsertAll t hnodup]
  by_cases hp : p key = true
  · rw [if_pos hp, lookup_eq_none ((hrest key).mp hp)]
  · rw [if_neg hp]
    have hstored : key ∈ rows.map Prod.fst := by
      by_contra hout
      exact hp ((hrest key).mpr hout)
    obtain ⟨entry, hentry, rfl⟩ := List.mem_map.mp hstored
    rw [(mem_iff_lookup hnodup entry).mp hentry]
    rfl

omit [DecidableEq ρ] in
/-- A selection is the list of its rows in their order. -/
theorem select_eq (t : Table κ ρ) {p : κ → Bool} {order : κ → ℕ} {expected : List (κ × ρ)}
    (hmem : ∀ entry, entry ∈ expected ↔ p entry.1 = true ∧ t.find entry.1 = some entry.2)
    (hsorted : expected.Pairwise fun a b => order a.1 < order b.1) :
    t.select p order = expected := by
  unfold Table.select
  have hperm : ((t.rows.filter fun entry => p entry.1).mergeSort fun a b =>
      order a.1 ≤ order b.1).Perm expected := by
    refine (List.mergeSort_perm _ _).trans ((List.perm_ext_iff_of_nodup ?_ ?_).mpr fun entry => ?_)
    · exact (List.Nodup.of_map Prod.fst t.keys_nodup).filter _
    · refine hsorted.imp fun {a b} hlt heq => ?_
      rw [heq] at hlt
      exact Nat.lt_irrefl _ hlt
    · rw [hmem, List.mem_filter, mem_rows_iff]
      exact and_comm
  have hinj : ∀ a ∈ expected, ∀ b ∈ expected, order a.1 = order b.1 → a = b := by
    have hdistinct : (expected.map fun entry => order entry.1).Nodup :=
      List.pairwise_map.mpr (hsorted.imp fun {a b} hlt => Nat.ne_of_lt hlt)
    exact fun a ha b hb => List.inj_on_of_nodup_map hdistinct ha hb
  have hselected : ((t.rows.filter fun entry => p entry.1).mergeSort fun a b =>
      order a.1 ≤ order b.1).Pairwise fun a b => decide (order a.1 ≤ order b.1) = true := by
    refine List.pairwise_mergeSort (fun a b c hab hbc => ?_) (fun a b => ?_) _
    · exact decide_eq_true (Nat.le_trans (of_decide_eq_true hab) (of_decide_eq_true hbc))
    · simp [Nat.le_total]
  refine List.Perm.eq_of_pairwise (fun a b ha hb hab hba => ?_) hselected
    (hsorted.imp fun {a b} hlt => decide_eq_true (Nat.le_of_lt hlt)) hperm
  exact hinj a (hperm.mem_iff.mp ha) b hb
    (Nat.le_antisymm (of_decide_eq_true hab) (of_decide_eq_true hba))

/-! ## The first row of each key -/

/-- `SELECT DISTINCT ON` the key: the first row of each key that was not seen. -/
def distinctOn : List κ → List (κ × ρ) → List (κ × ρ)
  | _, [] => []
  | seen, entry :: rest =>
    if entry.1 ∈ seen then distinctOn seen rest else entry :: distinctOn (entry.1 :: seen) rest

omit [DecidableEq ρ] in
/-- The first row of a key is kept. -/
theorem lookup_distinctOn (seen : List κ) (rows : List (κ × ρ)) (key : κ) :
    (distinctOn seen rows).lookup key = if key ∈ seen then none else rows.lookup key := by
  induction rows generalizing seen with
  | nil => simp [distinctOn]
  | cons entry rest ih =>
    unfold distinctOn
    by_cases hseen : entry.1 ∈ seen
    · rw [if_pos hseen, ih]
      by_cases hkey : key = entry.1
      · rw [hkey, if_pos hseen, if_pos hseen]
      · rw [lookup_cons_eq, if_neg hkey]
    · rw [if_neg hseen, lookup_cons_eq, lookup_cons_eq, ih]
      by_cases hkey : key = entry.1
      · rw [if_pos hkey, if_pos hkey, hkey, if_neg hseen]
      · simp [hkey]

omit [DecidableEq ρ] in
/-- Each key is kept once. -/
theorem distinctOn_keys (seen : List κ) (rows : List (κ × ρ)) :
    ((distinctOn seen rows).map Prod.fst).Nodup ∧
      ∀ key ∈ (distinctOn seen rows).map Prod.fst, key ∉ seen := by
  induction rows generalizing seen with
  | nil => exact ⟨List.nodup_nil, fun key hkey => absurd hkey List.not_mem_nil⟩
  | cons entry rest ih =>
    unfold distinctOn
    split_ifs with hseen
    · exact ih seen
    · obtain ⟨hnodup, hfresh⟩ := ih (entry.1 :: seen)
      refine ⟨List.nodup_cons.mpr ⟨fun hin => hfresh _ hin List.mem_cons_self, hnodup⟩,
        fun key hkey => ?_⟩
      rcases List.mem_cons.mp hkey with rfl | hlater
      · exact hseen
      · exact fun hin => hfresh key hlater (List.mem_cons_of_mem _ hin)

end FactoryServer.PrimaryKeys
