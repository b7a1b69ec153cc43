import Mathlib.Data.List.Basic
import Mathlib.Tactic.SplitIfs

/-!
# Tables behind a log of changes

A consumer keeps tables of rows and applies a log of changes to them: an upsert
merges into the row with the same primary key, an update and a delete reach
every row that matches a key, and a foreign key sweeps away the rows whose
parent is gone. The rows with one primary key form a slot, and every change
acts on each slot alone, so what becomes of a row is decided slot by slot.
-/

namespace FactoryServer.KeyedTables

/-- A row gives some columns a value. -/
abbrev Row (C V : Type) := C → Option V

/-- The columns a statement compares, with their values. -/
abbrev Key (C V : Type) := List (C × Option V)

/-- One statement of the log; an upsert finds its row by the primary key. -/
inductive Change (T C V : Type) where
  | upsert (table : T) (key : Key C V) (row : Row C V)
  | update (table : T) (key : Key C V) (row : Row C V)
  | delete (table : T) (key : Key C V)

/-- The table a statement is about. -/
def Change.table {T C V : Type} : Change T C V → T
  | .upsert table _ _ => table
  | .update table _ _ => table
  | .delete table _ => table

section Rows

variable {C V : Type}

/-- `{ ...old, ...new }`. -/
def merge (old new : Row C V) : Row C V := fun c => (new c).or (old c)

theorem merge_assoc (a b c : Row C V) : merge (merge a b) c = merge a (merge b c) := by
  funext col
  simp [merge, Option.or_assoc]

/-- Merge rows in order. -/
def mergeAll (rows : List (Row C V)) : Row C V := rows.foldl merge fun _ => none

theorem foldl_merge (first : Row C V) (rows : List (Row C V)) :
    rows.foldl merge first = merge first (mergeAll rows) := by
  unfold mergeAll
  induction rows generalizing first with
  | nil =>
    funext c
    simp [merge]
  | cons row rest ih =>
    rw [List.foldl_cons, ih, List.foldl_cons, ih (merge _ row), ← merge_assoc]
    congr 1
    funext c
    simp [merge]

theorem mergeAll_cons (row : Row C V) (rest : List (Row C V)) :
    mergeAll (row :: rest) = merge row (mergeAll rest) := by
  have hfirst : merge (fun _ => none) row = row := by
    funext c
    simp [merge]
  have hunfold : mergeAll (row :: rest) = rest.foldl merge (merge (fun _ => none) row) := rfl
  rw [hunfold, hfirst, foldl_merge]

@[simp] theorem mergeAll_singleton (row : Row C V) : mergeAll [row] = row := by
  funext c
  simp [mergeAll, merge]

/-- A cell that every merged row gives has one of the values they give. -/
theorem mergeAll_cell {rows : List (Row C V)} {c : C} {P : V → Prop} (hne : rows ≠ [])
    (h : ∀ row ∈ rows, ∃ v, row c = some v ∧ P v) : ∃ v, mergeAll rows c = some v ∧ P v := by
  induction rows with
  | nil => exact absurd rfl hne
  | cons row rest ih =>
    rw [mergeAll_cons]
    by_cases hrest : rest = []
    · obtain ⟨v, hv, hp⟩ := h row List.mem_cons_self
      exact ⟨v, by simp [merge, mergeAll, hrest, hv], hp⟩
    · obtain ⟨v, hv, hp⟩ := ih hrest fun r hr => h r (List.mem_cons_of_mem _ hr)
      exact ⟨v, by simp [merge, hv], hp⟩

/-- Merge rows into what a slot holds. -/
def putAll (news rows : List (Row C V)) : List (Row C V) :=
  if news = [] then rows
  else if rows = [] then [mergeAll news] else rows.map (merge · (mergeAll news))

theorem putAll_ne_nil {news : List (Row C V)} (h : news ≠ []) (rows : List (Row C V)) :
    putAll news rows ≠ [] := by
  unfold putAll
  rw [if_neg h]
  split_ifs with hrows
  · simp
  · simpa using hrows

/-- `row` has every cell of `part`. -/
def Extends (row part : Row C V) : Prop := ∀ c v, part c = some v → row c = some v

theorem extends_merge (old new : Row C V) : Extends (merge old new) new := by
  intro c v h
  simp [merge, h]

theorem Extends.trans {a b c : Row C V} (hab : Extends a b) (hbc : Extends b c) : Extends a c :=
  fun col v h => hab col v (hbc col v h)

/-- Every row of a slot that was upserted has the cells of the merged upserts. -/
theorem extends_of_mem_putAll {news rows : List (Row C V)} (h : news ≠ []) {row : Row C V}
    (hrow : row ∈ putAll news rows) : Extends row (mergeAll news) := by
  unfold putAll at hrow
  rw [if_neg h] at hrow
  split_ifs at hrow
  · rw [List.mem_singleton.mp hrow]
    exact fun _ _ hv => hv
  · obtain ⟨old, -, rfl⟩ := List.mem_map.mp hrow
    exact extends_merge _ _

variable [DecidableEq V]

/-- Two rows have the same values in the given columns. -/
def agree (columns : List C) (a b : Row C V) : Bool := columns.all fun c => a c == b c

theorem agree_iff {columns : List C} {a b : Row C V} :
    agree columns a b = true ↔ ∀ c ∈ columns, a c = b c := by
  simp [agree]

theorem agree_refl (columns : List C) (a : Row C V) : agree columns a a = true :=
  agree_iff.mpr fun _ _ => rfl

theorem agree_congr {columns : List C} {a b : Row C V} (h : agree columns a b = true)
    (c : Row C V) : agree columns a c = agree columns b c := by
  rw [Bool.eq_iff_iff, agree_iff, agree_iff]
  constructor
  · intro hc col hmem
    rw [← agree_iff.mp h col hmem, hc col hmem]
  · intro hc col hmem
    rw [agree_iff.mp h col hmem, hc col hmem]

/-- Merging rows that agree keeps the columns they agree in. -/
theorem agree_merge {columns : List C} {old new : Row C V} (h : agree columns old new = true) :
    agree columns (merge old new) old = true := by
  rw [agree_iff] at h ⊢
  intro c hc
  simp only [merge, ← h c hc]
  cases old c <;> rfl

/-- Rows that agree with a key merge to a row that agrees with it. -/
theorem agree_mergeAll {columns : List C} {key : Row C V} {rows : List (Row C V)}
    (hne : rows ≠ []) (h : ∀ row ∈ rows, agree columns row key = true) :
    agree columns (mergeAll rows) key = true := by
  induction rows with
  | nil => exact absurd rfl hne
  | cons row rest ih =>
    have hrow := agree_iff.mp (h row List.mem_cons_self)
    rw [mergeAll_cons, agree_iff]
    intro c hc
    by_cases hrest : rest = []
    · rw [hrest]
      simpa [merge, mergeAll] using hrow c hc
    · have hmerged := agree_iff.mp (ih hrest fun r hr => h r (List.mem_cons_of_mem _ hr)) c hc
      simp only [merge, hmerged, hrow c hc, Option.or_self]

/-- Every column of the key has its value. -/
def matchesKey (row : Row C V) (key : Key C V) : Bool := key.all fun entry => row entry.1 == entry.2

theorem matchesKey_iff {row : Row C V} {key : Key C V} :
    matchesKey row key = true ↔ ∀ entry ∈ key, row entry.1 = entry.2 := by
  simp [matchesKey]

/-- The row may come to match the key once its missing cells are filled. -/
def Compatible (row : Row C V) (key : Key C V) : Prop :=
  ∀ entry ∈ key, row entry.1 = none ∨ row entry.1 = entry.2

end Rows

section Tables

variable {T C V : Type} [DecidableEq T] [DecidableEq V]

/-- Insert a row, or merge it into the row with the same primary key. -/
def upsertRow (pk : List C) (rows : List (Row C V)) (row : Row C V) : List (Row C V) :=
  if rows.any (agree pk · row) then
    rows.map fun old => if agree pk old row then merge old row else old
  else rows ++ [row]

/-- Merge a row into every row that matches the key. -/
def updateRows (rows : List (Row C V)) (key : Key C V) (row : Row C V) : List (Row C V) :=
  rows.map fun old => if matchesKey old key then merge old row else old

/-- Remove every row that matches the key. -/
def deleteRows (rows : List (Row C V)) (key : Key C V) : List (Row C V) :=
  rows.filter fun row => !matchesKey row key

/-- What a change does to one table. -/
def act (pk : T → List C) (t : T) (rows : List (Row C V)) : Change T C V → List (Row C V)
  | .upsert table _ row => if table = t then upsertRow (pk t) rows row else rows
  | .update table key row => if table = t then updateRows rows key row else rows
  | .delete table key => if table = t then deleteRows rows key else rows

/-- Apply a log, table by table. -/
def applyChanges (pk : T → List C) (changes : List (Change T C V)) (tables : T → List (Row C V)) :
    T → List (Row C V) :=
  fun t => changes.foldl (act pk t) (tables t)

/-- Remove the rows of child tables that name a parent row that is not there;
`fk` gives a child its parent table and the joining column. -/
def sweep (fk : T → Option (T × C)) (isNull : V → Bool) (tables : T → List (Row C V)) :
    T → List (Row C V) :=
  fun t =>
    match fk t with
    | none => tables t
    | some (parent, column) => (tables t).filter fun row =>
      (row column).all isNull || (tables parent).any fun p => p column == row column

/-- Steps that fix every state but one item's leave the fold to that item. -/
theorem foldl_flatMap_of_fixed {A S B : Type} {step : S → B → S} {f : A → List B} {items : List A}
    {item : A} (hmem : item ∈ items) (hn : items.Nodup) {P : S → Prop}
    (hfix : ∀ other ∈ items, other ≠ item → ∀ s, P s → (f other).foldl step s = s)
    (hstep : ∀ s, P s → P ((f item).foldl step s)) {s : S} (hs : P s) :
    (items.flatMap f).foldl step s = (f item).foldl step s := by
  have hnone : ∀ rest : List A, rest ⊆ items → item ∉ rest → ∀ s, P s →
      (rest.flatMap f).foldl step s = s := by
    intro rest
    induction rest with
    | nil => exact fun _ _ _ _ => rfl
    | cons first rest ih =>
      intro hsub hnot s hs
      rw [List.flatMap_cons, List.foldl_append,
        hfix first (hsub List.mem_cons_self) (by rintro rfl; exact hnot List.mem_cons_self) s hs]
      exact ih (fun _ h => hsub (List.mem_cons_of_mem _ h))
        (fun h => hnot (List.mem_cons_of_mem _ h)) s hs
  obtain ⟨before, after, rfl⟩ := List.append_of_mem hmem
  rw [List.nodup_append] at hn
  have hbefore : item ∉ before := fun h => hn.2.2 item h item List.mem_cons_self rfl
  have hafter : item ∉ after := (List.nodup_cons.mp hn.2.1).1
  rw [List.flatMap_append, List.flatMap_cons, List.foldl_append, List.foldl_append,
    hnone before (fun _ h => List.mem_append_left _ h) hbefore s hs]
  exact hnone after (fun _ h => List.mem_append_right _ (List.mem_cons_of_mem _ h)) hafter _
    (hstep s hs)

/-- The rows with one primary key. -/
def slot (pk : List C) (rows : List (Row C V)) (key : Row C V) : List (Row C V) :=
  rows.filter (agree pk · key)

/-- What a change does to one slot of a table. -/
def actSlot (pk : T → List C) (t : T) (key : Row C V) (rows : List (Row C V)) :
    Change T C V → List (Row C V)
  | .upsert table _ row =>
    if table = t ∧ agree (pk t) row key = true then
      if rows = [] then [row] else rows.map (merge · row)
    else rows
  | .update table key row => if table = t then updateRows rows key row else rows
  | .delete table key => if table = t then deleteRows rows key else rows

/-- An update leaves the primary key of its table alone. -/
def KeepsKeys (pk : T → List C) : Change T C V → Prop
  | .update table _ row => ∀ c ∈ pk table, row c = none
  | _ => True

theorem slot_upsertRow (pk : List C) (rows : List (Row C V)) (row key : Row C V) :
    slot pk (upsertRow pk rows row) key =
      if agree pk row key = true then
        if slot pk rows key = [] then [row] else (slot pk rows key).map (merge · row)
      else slot pk rows key := by
  have hslot : ∀ old ∈ slot pk rows key, agree pk old row = agree pk row key := by
    intro old hold
    have hk := (List.mem_filter.mp hold).2
    rw [agree_congr hk, Bool.eq_iff_iff, agree_iff, agree_iff]
    constructor <;> exact fun h c hc => (h c hc).symm
  unfold upsertRow
  by_cases hany : rows.any (agree pk · row) = true
  · have hkeep : ∀ old : Row C V,
        agree pk (if agree pk old row then merge old row else old) key = agree pk old key := by
      intro old
      split_ifs with ho
      · exact agree_congr (agree_merge ho) key
      · rfl
    have hmap : slot pk (rows.map fun old => if agree pk old row then merge old row else old) key =
        (slot pk rows key).map fun old => if agree pk old row then merge old row else old := by
      unfold slot
      rw [List.filter_map]
      congr 2
      funext old
      exact hkeep old
    rw [if_pos hany, hmap]
    by_cases hrow : agree pk row key = true
    · obtain ⟨old, hmem, hold⟩ := List.any_eq_true.mp hany
      have hne : slot pk rows key ≠ [] := by
        apply List.ne_nil_of_mem (a := old)
        exact List.mem_filter.mpr ⟨hmem, by rw [agree_congr hold, hrow]⟩
      rw [if_pos hrow, if_neg hne]
      apply List.map_congr_left
      intro old hold
      rw [hslot old hold, if_pos hrow]
    · rw [if_neg hrow, List.map_congr_left (g := id)]
      · exact List.map_id _
      · intro old hold
        rw [hslot old hold, if_neg hrow]
        rfl
  · rw [if_neg hany]
    have happend : slot pk (rows ++ [row]) key =
        slot pk rows key ++ if agree pk row key = true then [row] else [] := by
      unfold slot
      rw [List.filter_append, List.filter_cons, List.filter_nil]
    rw [happend]
    by_cases hrow : agree pk row key = true
    · have hnil : slot pk rows key = [] := by
        rw [List.eq_nil_iff_forall_not_mem]
        intro old hold
        apply hany
        rw [List.any_eq_true]
        exact ⟨old, (List.mem_filter.mp hold).1, by rw [hslot old hold, hrow]⟩
      rw [if_pos hrow, if_pos hrow, if_pos hnil, hnil, List.nil_append]
    · rw [if_neg hrow, if_neg hrow, List.append_nil]

theorem slot_updateRows {pk : List C} (rows : List (Row C V)) (key : Key C V) {row : Row C V}
    (h : ∀ c ∈ pk, row c = none) (k : Row C V) :
    slot pk (updateRows rows key row) k = updateRows (slot pk rows k) key row := by
  unfold slot updateRows
  rw [List.filter_map]
  congr 2
  funext old
  have hmerge : agree pk (merge old row) old = true := by
    rw [agree_iff]
    intro c hc
    simp [merge, h c hc]
  simp only [Function.comp_apply]
  split_ifs
  · exact agree_congr hmerge k
  · rfl

theorem slot_deleteRows (pk : List C) (rows : List (Row C V)) (key : Key C V) (k : Row C V) :
    slot pk (deleteRows rows key) k = deleteRows (slot pk rows k) key := by
  unfold slot deleteRows
  rw [List.filter_filter, List.filter_filter]
  apply List.filter_congr
  intro row _
  exact Bool.and_comm _ _

/-- A change acts on every slot alone. -/
theorem slot_act {pk : T → List C} {t : T} {change : Change T C V} (h : KeepsKeys pk change)
    (rows : List (Row C V)) (key : Row C V) :
    slot (pk t) (act pk t rows change) key = actSlot pk t key (slot (pk t) rows key) change := by
  cases change with
  | upsert table k row =>
    by_cases ht : table = t
    · simp only [act, actSlot, ht, if_true, true_and]
      exact slot_upsertRow (pk t) rows row key
    · simp only [act, actSlot, ht, if_false, false_and]
  | update table k row =>
    by_cases ht : table = t
    · subst ht
      simp only [act, actSlot, if_true]
      exact slot_updateRows rows k h key
    · simp only [act, actSlot, ht, if_false]
  | delete table k =>
    by_cases ht : table = t
    · simp only [act, actSlot, ht, if_true]
      exact slot_deleteRows (pk t) rows k key
    · simp only [act, actSlot, ht, if_false]

/-- A log acts on every slot alone. -/
theorem slot_applyChanges {pk : T → List C} {changes : List (Change T C V)}
    (h : ∀ change ∈ changes, KeepsKeys pk change) (tables : T → List (Row C V)) (t : T)
    (key : Row C V) :
    slot (pk t) (applyChanges pk changes tables t) key =
      changes.foldl (actSlot pk t key) (slot (pk t) (tables t) key) := by
  unfold applyChanges
  generalize tables t = rows
  induction changes generalizing rows with
  | nil => rfl
  | cons change rest ih =>
    rw [List.foldl_cons, List.foldl_cons, ih fun c hc => h c (List.mem_cons_of_mem _ hc),
      slot_act (h change List.mem_cons_self)]

/-- Changes of other tables do not act on a slot. -/
theorem foldl_actSlot_filter (pk : T → List C) (t : T) (key : Row C V)
    (changes : List (Change T C V)) (rows : List (Row C V)) :
    changes.foldl (actSlot pk t key) rows =
      (changes.filter fun change => change.table = t).foldl (actSlot pk t key) rows := by
  induction changes generalizing rows with
  | nil => rfl
  | cons change rest ih =>
    by_cases ht : change.table = t
    · rw [List.foldl_cons, List.filter_cons_of_pos (by simpa using ht), List.foldl_cons, ih]
    · have hid : actSlot pk t key rows change = rows := by
        cases change with
        | upsert table k row => exact if_neg fun h => ht h.1
        | update table k row => exact if_neg ht
        | delete table k => exact if_neg ht
      rw [List.foldl_cons, List.filter_cons_of_neg (by simpa using ht), hid, ih]

/-- A run of upserts merges the rows that agree with the slot's key. -/
theorem foldl_actSlot_upserts (pk : T → List C) (t : T) (key : Row C V)
    (named : Row C V → Key C V) (news rows : List (Row C V)) :
    (news.map fun row => Change.upsert t (named row) row).foldl (actSlot pk t key) rows =
      putAll (news.filter (agree (pk t) · key)) rows := by
  induction news generalizing rows with
  | nil => rfl
  | cons row rest ih =>
    rw [List.map_cons, List.foldl_cons, ih, List.filter_cons]
    by_cases hu : agree (pk t) row key = true
    · simp only [actSlot, hu, and_self, if_true]
      generalize rest.filter (agree (pk t) · key) = news
      unfold putAll
      by_cases hnews : news = []
      · subst hnews
        have hnil : merge row (mergeAll []) = row := by
          funext c
          simp [merge, mergeAll]
        simp [mergeAll_cons, hnil]
      · by_cases hrows : rows = []
        · simp [hnews, hrows, mergeAll_cons]
        · simp [hnews, hrows, mergeAll_cons, merge_assoc]
    · simp [actSlot, hu]

/-- A run of deletes keeps the rows that match none of the keys. -/
theorem foldl_actSlot_deletes (pk : T → List C) (t : T) (key : Row C V) (keys : List (Key C V))
    (rows : List (Row C V)) :
    (keys.map fun k => Change.delete t k).foldl (actSlot pk t key) rows =
      rows.filter fun row => keys.all fun k => !matchesKey row k := by
  induction keys generalizing rows with
  | nil => simp
  | cons k rest ih =>
    rw [List.map_cons, List.foldl_cons, ih]
    simp only [actSlot, if_true, deleteRows, List.filter_filter, List.all_cons]
    apply List.filter_congr
    intro row _
    exact Bool.and_comm _ _

/-- The cells a key asks for. -/
def keyRow [DecidableEq C] (key : Key C V) : Row C V := fun c =>
  (key.find? fun entry => entry.1 = c).bind Prod.snd

omit [DecidableEq V] in
theorem keyRow_of_mem [DecidableEq C] {key : Key C V} (hn : (key.map Prod.fst).Nodup)
    {entry : C × Option V} (h : entry ∈ key) : keyRow key entry.1 = entry.2 := by
  have hfind : (key.find? fun e => e.1 = entry.1) = some entry := by
    rw [List.find?_eq_some_iff_append]
    obtain ⟨before, after, rfl⟩ := List.append_of_mem h
    refine ⟨by simp, before, after, rfl, ?_⟩
    intro e he
    rw [List.map_append, List.nodup_append] at hn
    have hne := hn.2.2 e.1 (List.mem_map_of_mem he) entry.1 (by simp)
    simpa using hne
  simp [keyRow, hfind]

/-- A row of a slot with the cells that a key asks for and the upserts leave open. -/
def filler [DecidableEq C] (pk : List C) (key : Row C V) (news : List (Row C V)) (k : Key C V) :
    Row C V := fun c =>
  if c ∈ pk then key c else if mergeAll news c = none then keyRow k c else none

/-- Upserts over a refreshed slot and then deletes leave a row, whatever the slot
held, exactly when some row was upserted and no delete is compatible with what was.
A refresh keeps rows by `keep`, and must keep the row that a delete would catch
unless the upserts give all the cells that the delete compares. -/
theorem survives_refresh_iff [DecidableEq C] {pk : List C} {key : Row C V} {news : List (Row C V)}
    {keys : List (Key C V)} (keep : Row C V → Bool) (hkey : ∀ c ∈ pk, key c ≠ none)
    (hnews : ∀ row ∈ news, agree pk row key = true)
    (hkeys : ∀ k ∈ keys, (k.map Prod.fst).Nodup ∧ ∀ e ∈ k, e.2 ≠ none)
    (hkeep : ∀ k ∈ keys, keep (filler pk key news k) = true ∨ ∀ e ∈ k, mergeAll news e.1 ≠ none) :
    (∀ rows : List (Row C V), (∀ row ∈ rows, agree pk row key = true) →
      ((putAll news (rows.filter keep)).filter fun row => keys.all fun k => !matchesKey row k) ≠
        []) ↔
    news ≠ [] ∧ ∀ k ∈ keys, ¬ Compatible (mergeAll news) k := by
  constructor
  · intro h
    have hne : news ≠ [] := by
      rintro rfl
      exact h [] (by simp) rfl
    refine ⟨hne, fun k hk hcompatible => ?_⟩
    have hmerged := agree_mergeAll hne hnews
    obtain ⟨hnodup, hsome⟩ := hkeys k hk
    have hcaught : ∀ row, matchesKey row k = true →
        (keys.all fun k => !matchesKey row k) = false := by
      intro row hmatch
      rw [List.all_eq_false]
      exact ⟨k, hk, by simp [hmatch]⟩
    rcases hkeep k hk with hkept | hgiven
    · refine h [filler pk key news k] ?_ ?_
      · intro row hrow
        rw [List.mem_singleton.mp hrow, agree_iff]
        intro c hc
        exact if_pos hc
      · have hput : putAll news ([filler pk key news k].filter keep) =
            [merge (filler pk key news k) (mergeAll news)] := by
          simp [putAll, hne, hkept]
        rw [hput, List.filter_singleton, hcaught, cond_false]
        · rw [matchesKey_iff]
          intro entry he
          rcases hcompatible entry he with hn | hs
          · have hpk : entry.1 ∉ pk := by
              intro hmem
              exact hkey _ hmem (by rw [← agree_iff.mp hmerged _ hmem, hn])
            simp [merge, filler, hn, hpk, keyRow_of_mem hnodup he]
          · cases hv : entry.2 with
            | none => exact absurd hv (hsome entry he)
            | some v => simp [merge, hs, hv]
    · refine h [] (by simp) ?_
      have hput : putAll news (([] : List (Row C V)).filter keep) = [mergeAll news] := by
        simp [putAll, hne]
      rw [hput, List.filter_singleton, hcaught, cond_false]
      · rw [matchesKey_iff]
        intro entry he
        exact (hcompatible entry he).resolve_left (hgiven entry he)
  · rintro ⟨hne, hall⟩ rows - hnil
    obtain ⟨row, hrow⟩ := List.exists_mem_of_ne_nil _ (putAll_ne_nil hne (rows.filter keep))
    have hcaught := List.filter_eq_nil_iff.mp hnil row hrow
    simp only [List.all_eq_true, Bool.not_eq_true', not_forall, Bool.not_eq_false] at hcaught
    obtain ⟨k, hk, hmatch⟩ := hcaught
    refine hall k hk fun entry he => ?_
    cases hc : mergeAll news entry.1 with
    | none => exact Or.inl rfl
    | some v =>
      right
      have hrowcell := extends_of_mem_putAll hne hrow entry.1 v hc
      rw [← hrowcell, matchesKey_iff.mp hmatch entry he]

/-- The same without a refresh. -/
theorem survives_iff [DecidableEq C] {pk : List C} {key : Row C V} {news : List (Row C V)}
    (hkey : ∀ c ∈ pk, key c ≠ none) (hnews : ∀ row ∈ news, agree pk row key = true)
    {keys : List (Key C V)} (hkeys : ∀ k ∈ keys, (k.map Prod.fst).Nodup ∧ ∀ e ∈ k, e.2 ≠ none) :
    (∀ rows : List (Row C V), (∀ row ∈ rows, agree pk row key = true) →
      ((putAll news rows).filter fun row => keys.all fun k => !matchesKey row k) ≠ []) ↔
    news ≠ [] ∧ ∀ k ∈ keys, ¬ Compatible (mergeAll news) k := by
  have hrefresh := survives_refresh_iff (fun _ => true) hkey hnews hkeys
    fun _ _ => Or.inl rfl
  simpa only [List.filter_true] using hrefresh

/-- A run of updates leaves the columns alone that none of its rows gives. -/
theorem foldl_actSlot_updates (pk : T → List C) (t : T) (key : Row C V) {columns : List C}
    {changes : List (Change T C V)}
    (h : ∀ change ∈ changes, ∃ k row, change = .update t k row ∧ ∀ c ∈ columns, row c = none) :
    ∃ edit : Row C V → Row C V, (∀ row, ∀ c ∈ columns, edit row c = row c) ∧
      ∀ rows, changes.foldl (actSlot pk t key) rows = rows.map edit := by
  induction changes with
  | nil => exact ⟨id, fun _ _ _ => rfl, fun rows => (List.map_id rows).symm⟩
  | cons change rest ih =>
    obtain ⟨edit, hedit, hrest⟩ := ih fun c hc => h c (List.mem_cons_of_mem _ hc)
    obtain ⟨k, row, rfl, hrow⟩ := h change List.mem_cons_self
    refine ⟨fun old => edit (if matchesKey old k then merge old row else old), ?_, ?_⟩
    · intro old c hc
      dsimp only
      rw [hedit _ c hc]
      split_ifs
      · simp [merge, hrow c hc]
      · rfl
    · intro rows
      rw [List.foldl_cons, hrest]
      simp only [actSlot, if_true, updateRows, List.map_map]
      rfl

end Tables

end FactoryServer.KeyedTables
