import FactoryServer.KeyedTables

/-!
# Where the rows of a table come from

Whatever a log does to a table, every row it leaves has the primary key of a row
that was there or of a row that was upserted, and a cell that no update writes
has a value that it had there. Without deletes, every such key is still there.
-/

namespace FactoryServer.RowOrigins

open KeyedTables

variable {T C V : Type} [DecidableEq T] [DecidableEq V]

/-- A log upserts a row into a table. -/
def Upserts (t : T) (changes : List (Change T C V)) (row : Row C V) : Prop :=
  ∃ key, .upsert t key row ∈ changes

omit [DecidableEq T] in
theorem mem_upsertRow {pk : List C} {rows : List (Row C V)} {row found : Row C V}
    (h : found ∈ upsertRow pk rows row) : found ∈ rows ∨ found = row ∨
      ∃ old ∈ rows, agree pk old row = true ∧ found = merge old row := by
  unfold upsertRow at h
  split_ifs at h
  · obtain ⟨old, hold, rfl⟩ := List.mem_map.mp h
    split_ifs with hagree
    · exact Or.inr (Or.inr ⟨old, hold, hagree, rfl⟩)
    · exact Or.inl hold
  · rcases List.mem_append.mp h with h | h
    · exact Or.inl h
    · exact Or.inr (Or.inl (List.mem_singleton.mp h))

omit [DecidableEq T] in
theorem mem_updateRows {rows : List (Row C V)} {key : Key C V} {row found : Row C V}
    (h : found ∈ updateRows rows key row) : found ∈ rows ∨
      ∃ old ∈ rows, matchesKey old key = true ∧ found = merge old row := by
  obtain ⟨old, hold, rfl⟩ := List.mem_map.mp h
  split_ifs with hmatch
  · exact Or.inr ⟨old, hold, hmatch, rfl⟩
  · exact Or.inl hold

/-- A property of rows that every kind of write keeps. -/
structure Kept (pk : T → List C) (t : T) (changes : List (Change T C V)) (P : Row C V → Prop) :
    Prop where
  /-- Upserted rows have it. -/
  fresh : ∀ key row, .upsert t key row ∈ changes → P row
  /-- Merging an upserted row keeps it. -/
  merged : ∀ key row, .upsert t key row ∈ changes → ∀ old, P old → agree (pk t) old row = true →
    P (merge old row)
  /-- Merging an update keeps it. -/
  updated : ∀ key row, .update t key row ∈ changes → ∀ old, P old → matchesKey old key = true →
    P (merge old row)

omit [DecidableEq T] in
theorem Kept.mono {pk : T → List C} {t : T} {changes fewer : List (Change T C V)}
    {P : Row C V → Prop} (h : Kept pk t changes P) (hsub : fewer ⊆ changes) :
    Kept pk t fewer P where
  fresh key row hmem := h.fresh key row (hsub hmem)
  merged key row hmem := h.merged key row (hsub hmem)
  updated key row hmem := h.updated key row (hsub hmem)

/-- A property that one statement keeps. -/
theorem act_keeps {pk : T → List C} {t : T} {change : Change T C V} {P : Row C V → Prop}
    (h : Kept pk t [change] P) {rows : List (Row C V)} (hrows : ∀ row ∈ rows, P row) :
    ∀ row ∈ act pk t rows change, P row := by
  intro row hrow
  cases change with
  | upsert table key new =>
    by_cases ht : table = t
    · subst ht
      rw [act, if_pos rfl] at hrow
      have hmem : Change.upsert table key new ∈ [Change.upsert table key new] :=
        List.mem_singleton_self _
      rcases mem_upsertRow hrow with hold | rfl | ⟨old, hold, hagree, rfl⟩
      · exact hrows row hold
      · exact h.fresh key row hmem
      · exact h.merged key new hmem old (hrows old hold) hagree
    · rw [act, if_neg ht] at hrow
      exact hrows row hrow
  | update table key new =>
    by_cases ht : table = t
    · subst ht
      rw [act, if_pos rfl] at hrow
      rcases mem_updateRows hrow with hold | ⟨old, hold, hmatch, rfl⟩
      · exact hrows row hold
      · exact h.updated key new (List.mem_singleton_self _) old (hrows old hold) hmatch
    · rw [act, if_neg ht] at hrow
      exact hrows row hrow
  | delete table key =>
    rw [act] at hrow
    split_ifs at hrow
    · exact hrows row (List.mem_filter.mp hrow).1
    · exact hrows row hrow

/-- A property that every statement of a log keeps. -/
theorem foldl_keeps {pk : T → List C} {t : T} {changes : List (Change T C V)} {P : Row C V → Prop}
    (h : Kept pk t changes P) {rows : List (Row C V)} (hrows : ∀ row ∈ rows, P row) :
    ∀ row ∈ changes.foldl (act pk t) rows, P row := by
  induction changes generalizing rows with
  | nil => exact hrows
  | cons change rest ih =>
    have hfirst : Kept pk t [change] P :=
      h.mono fun _ hc => List.mem_singleton.mp hc ▸ List.mem_cons_self
    have hrest : Kept pk t rest P := h.mono fun _ hc => List.mem_cons_of_mem _ hc
    rw [List.foldl_cons]
    exact ih hrest (act_keeps hfirst hrows)

omit [DecidableEq T] in
/-- Merging an update keeps the primary key. -/
theorem agree_update {pk : List C} {old new : Row C V} (h : ∀ c ∈ pk, new c = none) :
    agree pk (merge old new) old = true := by
  rw [agree_iff]
  intro c hc
  simp [merge, h c hc]

/-- Every row has the primary key of a row that was there or was upserted. -/
theorem origin_of_mem {pk : T → List C} {t : T} {changes : List (Change T C V)}
    (h : ∀ change ∈ changes, KeepsKeys pk change) {rows : List (Row C V)} {row : Row C V}
    (hrow : row ∈ changes.foldl (act pk t) rows) :
    (∃ old ∈ rows, agree (pk t) row old = true) ∨
      ∃ new, Upserts t changes new ∧ agree (pk t) row new = true := by
  let P : Row C V → Prop := fun row => (∃ old ∈ rows, agree (pk t) row old = true) ∨
    ∃ new, Upserts t changes new ∧ agree (pk t) row new = true
  have hmerge : ∀ old new : Row C V, agree (pk t) (merge old new) old = true → P old →
      P (merge old new) := by
    intro old new hagree hold
    rcases hold with ⟨found, hfound, hsame⟩ | ⟨found, hfound, hsame⟩
    · exact Or.inl ⟨found, hfound, by rw [agree_congr hagree, hsame]⟩
    · exact Or.inr ⟨found, hfound, by rw [agree_congr hagree, hsame]⟩
  have hkept : Kept pk t changes P := by
    constructor
    · intro key new hmem
      exact Or.inr ⟨new, ⟨key, hmem⟩, agree_refl _ new⟩
    · intro key new _ old hold hagree
      exact hmerge old new (agree_merge hagree) hold
    · intro key new hmem old hold _
      exact hmerge old new (agree_update (h _ hmem)) hold
  exact foldl_keeps hkept (fun r hr => Or.inl ⟨r, hr, agree_refl _ r⟩) row hrow

/-- From an empty table, every row has the primary key of an upserted row. -/
theorem origin_of_nil {pk : T → List C} {t : T} {changes : List (Change T C V)}
    (h : ∀ change ∈ changes, KeepsKeys pk change) {row : Row C V}
    (hrow : row ∈ changes.foldl (act pk t) []) :
    ∃ new, Upserts t changes new ∧ agree (pk t) row new = true := by
  rcases origin_of_mem h hrow with ⟨old, hold, -⟩ | hnew
  · cases hold
  · exact hnew

/-- A log that does not delete from a table keeps its primary keys. -/
theorem key_kept {pk : T → List C} {t : T} {changes : List (Change T C V)}
    (h : ∀ change ∈ changes, KeepsKeys pk change) (hd : ∀ key, .delete t key ∉ changes)
    {rows : List (Row C V)} {row : Row C V} (hrow : row ∈ rows) :
    ∃ found ∈ changes.foldl (act pk t) rows, agree (pk t) found row = true := by
  induction changes generalizing rows row with
  | nil => exact ⟨row, hrow, agree_refl _ row⟩
  | cons change rest ih =>
    have hrest : ∀ c ∈ rest, KeepsKeys pk c := fun c hc => h c (List.mem_cons_of_mem _ hc)
    have hdrest : ∀ key, .delete t key ∉ rest := fun key hk => hd key (List.mem_cons_of_mem _ hk)
    have hstep : ∃ next ∈ act pk t rows change, agree (pk t) next row = true := by
      cases change with
      | upsert table key new =>
        rw [act]
        split_ifs with ht
        · unfold upsertRow
          split_ifs with hany
          · refine ⟨_, List.mem_map_of_mem hrow, ?_⟩
            split_ifs with hagree
            · exact agree_merge hagree
            · exact agree_refl _ row
          · exact ⟨row, List.mem_append_left _ hrow, agree_refl _ row⟩
        · exact ⟨row, hrow, agree_refl _ row⟩
      | update table key new =>
        rw [act]
        split_ifs with ht
        · subst ht
          refine ⟨_, List.mem_map_of_mem hrow, ?_⟩
          split_ifs
          · have hnone : ∀ c ∈ pk table, new c = none := h _ List.mem_cons_self
            exact agree_update hnone
          · exact agree_refl _ row
        · exact ⟨row, hrow, agree_refl _ row⟩
      | delete table key =>
        rw [act]
        split_ifs with ht
        · subst ht
          exact absurd List.mem_cons_self (hd key)
        · exact ⟨row, hrow, agree_refl _ row⟩
    obtain ⟨next, hnext, hsame⟩ := hstep
    obtain ⟨found, hfound, hagree⟩ := ih hrest hdrest hnext
    exact ⟨found, hfound, by rw [agree_congr hagree, hsame]⟩

/-- A log that does not delete from a table leaves a row for every upsert. -/
theorem upsert_kept {pk : T → List C} {t : T} {changes : List (Change T C V)}
    (h : ∀ change ∈ changes, KeepsKeys pk change) (hd : ∀ key, .delete t key ∉ changes)
    (rows : List (Row C V)) {row : Row C V} (hrow : Upserts t changes row) :
    ∃ found ∈ changes.foldl (act pk t) rows, agree (pk t) found row = true := by
  obtain ⟨key, hkey⟩ := hrow
  obtain ⟨before, after, rfl⟩ := List.append_of_mem hkey
  have hafter : ∀ c ∈ after, KeepsKeys pk c := fun c hc =>
    h c (List.mem_append_right _ (List.mem_cons_of_mem _ hc))
  have hdafter : ∀ key, .delete t key ∉ after := fun key hk =>
    hd key (List.mem_append_right _ (List.mem_cons_of_mem _ hk))
  rw [List.foldl_append, List.foldl_cons, act, if_pos rfl]
  generalize before.foldl (act pk t) rows = start
  have hput : ∃ next ∈ upsertRow (pk t) start row, agree (pk t) next row = true := by
    unfold upsertRow
    split_ifs with hany
    · obtain ⟨old, hold, hagree⟩ := List.any_eq_true.mp hany
      refine ⟨_, List.mem_map_of_mem hold, ?_⟩
      rw [if_pos hagree, agree_congr (agree_merge hagree), hagree]
    · exact ⟨row, List.mem_append_right _ (List.mem_singleton_self _), agree_refl _ row⟩
  obtain ⟨next, hnext, hsame⟩ := hput
  obtain ⟨found, hfound, hagree⟩ := key_kept hafter hdafter hnext
  exact ⟨found, hfound, by rw [agree_congr hagree, hsame]⟩

omit [DecidableEq T] in
/-- A cell that no update writes. -/
theorem cell_kept {pk : T → List C} {t : T} {changes : List (Change T C V)} {c : C} {Q : Option V → Prop}
    (hup : ∀ row, Upserts t changes row → Q (row c))
    (hd : ∀ key row, .update t key row ∈ changes → row c = none) :
    Kept pk t changes fun row => Q (row c) where
  fresh key row hmem := hup row ⟨key, hmem⟩
  merged key row hmem old hold _ := by
    cases hc : row c with
    | none => simpa [merge, hc] using hold
    | some v =>
      have hrow := hup row ⟨key, hmem⟩
      simpa [merge, hc] using hrow
  updated key row hmem old hold _ := by
    simpa [merge, hd key row hmem] using hold

/-- A row of a child table names no parent, or one that is there. -/
def HasParent (isNull : V → Bool) (column : C) (parents : List (Row C V)) (row : Row C V) : Prop :=
  (row column).all isNull = true ∨ ∃ p ∈ parents, p column = row column

/-- The foreign keys of a state hold. -/
def ForeignKeys (fk : T → Option (T × C)) (isNull : V → Bool) (tables : T → List (Row C V)) :
    Prop :=
  ∀ t parent column, fk t = some (parent, column) →
    ∀ row ∈ tables t, HasParent isNull column (tables parent) row

omit [DecidableEq T] in
/-- Where parents are no children themselves, a sweep makes the foreign keys hold. -/
theorem foreignKeys_sweep {fk : T → Option (T × C)} (isNull : V → Bool)
    (h : ∀ t parent column, fk t = some (parent, column) → fk parent = none)
    (tables : T → List (Row C V)) : ForeignKeys fk isNull (sweep fk isNull tables) := by
  intro t parent column hfk row hrow
  have hparent : sweep fk isNull tables parent = tables parent := by
    unfold sweep
    rw [h t parent column hfk]
  unfold sweep at hrow
  rw [hfk] at hrow
  have hkept := (List.mem_filter.mp hrow).2
  rw [Bool.or_eq_true, List.any_eq_true] at hkept
  rw [hparent]
  rcases hkept with hnull | ⟨p, hp, hsame⟩
  · exact Or.inl hnull
  · exact Or.inr ⟨p, hp, by simpa using hsame⟩

omit [DecidableEq T] in
/-- A sweep leaves a table alone whose rows have their parents. -/
theorem sweep_of_parents {fk : T → Option (T × C)} {isNull : V → Bool} {tables : T → List (Row C V)}
    {t : T} (h : ∀ parent column, fk t = some (parent, column) →
      ∀ row ∈ tables t, HasParent isNull column (tables parent) row) :
    sweep fk isNull tables t = tables t := by
  unfold sweep
  cases hfk : fk t with
  | none => rfl
  | some link =>
    obtain ⟨parent, column⟩ := link
    dsimp only
    rw [List.filter_eq_self]
    intro row hrow
    rw [Bool.or_eq_true, List.any_eq_true]
    rcases h parent column hfk row hrow with hnull | ⟨p, hp, hsame⟩
    · exact Or.inl hnull
    · exact Or.inr ⟨p, hp, by simpa using hsame⟩

/-- A log that deletes no parents and upserts children together with theirs
leaves no child without a parent. -/
theorem parents_kept {pk : T → List C} {isNull : V → Bool} {changes : List (Change T C V)}
    {t parent : T} {column : C} (hpk : pk parent = [column])
    (h : ∀ change ∈ changes, KeepsKeys pk change) (hd : ∀ key, .delete parent key ∉ changes)
    (hu : ∀ key row, .update t key row ∈ changes → row column = none)
    (hchild : ∀ row, Upserts t changes row → ∃ p, Upserts parent changes p ∧ p column = row column)
    {tables : T → List (Row C V)}
    (hrows : ∀ row ∈ tables t, HasParent isNull column (tables parent) row) :
    ∀ row ∈ applyChanges pk changes tables t,
      HasParent isNull column (applyChanges pk changes tables parent) row := by
  let Q : Option V → Prop := fun cell => cell.all isNull = true ∨
    ∃ p ∈ applyChanges pk changes tables parent, p column = cell
  have hsame : ∀ a b : Row C V, agree (pk parent) a b = true → a column = b column := by
    intro a b hagree
    exact agree_iff.mp hagree column (by rw [hpk]; exact List.mem_singleton_self _)
  have hfresh : ∀ row, Upserts t changes row → Q (row column) := by
    intro row hrow
    obtain ⟨p, hp, hcell⟩ := hchild row hrow
    obtain ⟨found, hfound, hagree⟩ := upsert_kept h hd (tables parent) hp
    exact Or.inr ⟨found, hfound, by rw [hsame found p hagree, hcell]⟩
  refine foldl_keeps (P := fun row => Q (row column)) (cell_kept hfresh hu) ?_
  intro row hrow
  rcases hrows row hrow with hnull | ⟨p, hp, hcell⟩
  · exact Or.inl hnull
  · obtain ⟨found, hfound, hagree⟩ := key_kept h hd hp
    exact Or.inr ⟨found, hfound, by rw [hsame found p hagree, hcell]⟩

end FactoryServer.RowOrigins
