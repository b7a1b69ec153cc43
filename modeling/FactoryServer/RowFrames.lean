import FactoryServer.RowOrigins

/-!
# Rows that a log does not look for

A log whose keys match no row of some kind, and whose upserts write no row of
that kind, changes such a row only by an upsert under its primary key, and only
by taking it out of the kind. What is left of the kind is a filter of what was
there.
-/

namespace FactoryServer.RowFrames

open KeyedTables RowOrigins

variable {T C V : Type} [DecidableEq T] [DecidableEq V]

/-- The rows that a log upserts into a table. -/
def upsertedRows (t : T) (changes : List (Change T C V)) : List (Row C V) :=
  changes.filterMap fun change =>
    match change with
    | .upsert table _ row => if table = t then some row else none
    | _ => none

/-- No upsert has the primary key of the row. -/
def untouched (pk : List C) (t : T) (changes : List (Change T C V)) (row : Row C V) : Bool :=
  (upsertedRows t changes).all fun new => !agree pk row new

omit [DecidableEq V] in
theorem mem_upsertedRows {t : T} {changes : List (Change T C V)} {row : Row C V} :
    row ∈ upsertedRows t changes ↔ Upserts t changes row := by
  unfold upsertedRows
  rw [List.mem_filterMap]
  constructor
  · rintro ⟨change, hmem, hrow⟩
    cases change with
    | upsert table key new =>
      dsimp only at hrow
      by_cases ht : table = t
      · subst ht
        rw [if_pos rfl] at hrow
        exact ⟨key, Option.some.inj hrow ▸ hmem⟩
      · rw [if_neg ht] at hrow
        cases hrow
    | update table key new => cases hrow
    | delete table key => cases hrow
  · rintro ⟨key, hmem⟩
    exact ⟨_, hmem, if_pos rfl⟩

theorem untouched_iff {pk : List C} {t : T} {changes : List (Change T C V)} {row : Row C V} :
    untouched pk t changes row = true ↔
      ∀ new, Upserts t changes new → agree pk row new = false := by
  unfold untouched
  rw [List.all_eq_true]
  constructor
  · intro h new hnew
    simpa using h new (mem_upsertedRows.mpr hnew)
  · intro h new hnew
    simp [h new (mem_upsertedRows.mp hnew)]

/-- The log has no business with the kept rows. -/
structure Frames (t : T) (changes : List (Change T C V)) (keep : Row C V → Bool) : Prop where
  /-- What an upsert leaves is not kept. -/
  upserted : ∀ key row, .upsert t key row ∈ changes → ∀ old, keep (merge old row) = false
  /-- An update finds no kept row. -/
  sought : ∀ key row, .update t key row ∈ changes → ∀ old, keep old = true →
    matchesKey old key = false
  /-- An update makes no row a kept one. -/
  updated : ∀ key row, .update t key row ∈ changes → ∀ old, keep old = false →
    keep (merge old row) = false
  /-- A delete finds no kept row. -/
  deleted : ∀ key, .delete t key ∈ changes → ∀ old, keep old = true → matchesKey old key = false

omit [DecidableEq T] in
theorem Frames.mono {t : T} {changes fewer : List (Change T C V)} {keep : Row C V → Bool}
    (h : Frames t changes keep) (hsub : fewer ⊆ changes) : Frames t fewer keep where
  upserted key row hmem := h.upserted key row (hsub hmem)
  sought key row hmem := h.sought key row (hsub hmem)
  updated key row hmem := h.updated key row (hsub hmem)
  deleted key hmem := h.deleted key (hsub hmem)

omit [DecidableEq T] [DecidableEq V] in
/-- Editing rows out of the kind leaves the others. -/
theorem filter_map_out {keep hit : Row C V → Bool} {edit : Row C V → Row C V}
    (h : ∀ row, hit row = true → keep (edit row) = false) (rows : List (Row C V)) :
    (rows.map fun row => if hit row then edit row else row).filter keep =
      (rows.filter keep).filter fun row => !hit row := by
  induction rows with
  | nil => rfl
  | cons row rest ih =>
    rw [List.map_cons, List.filter_cons, ih]
    by_cases hhit : hit row = true
    · have hout := h row hhit
      cases hkeep : keep row <;> simp [hhit, hout, hkeep]
    · cases hkeep : keep row <;> simp [hhit, hkeep]

/-- What one statement leaves of the kept rows. -/
theorem filter_act {pk : T → List C} {t : T} {change : Change T C V} {keep : Row C V → Bool}
    (h : Frames t [change] keep) (rows : List (Row C V)) :
    (act pk t rows change).filter keep = (rows.filter keep).filter (untouched (pk t) t [change]) := by
  have hmem : change ∈ [change] := List.mem_singleton_self _
  cases change with
  | upsert table key new =>
    by_cases ht : table = t
    · subst ht
      have huntouched : untouched (pk table) table [Change.upsert table key new] =
          fun row => !agree (pk table) row new := by
        funext row
        simp [untouched, upsertedRows]
      have hnew : keep new = false := by
        have hempty : merge (fun _ => none) new = new := by
          funext c
          simp [merge]
        have hout := h.upserted key new hmem fun _ => none
        rwa [hempty] at hout
      rw [act, if_pos rfl, huntouched, upsertRow]
      split_ifs with hany
      · exact filter_map_out (fun row _ => h.upserted key new hmem row) rows
      · have hnone : ∀ row ∈ rows, agree (pk table) row new = false := by
          intro row hrow
          rw [Bool.eq_false_iff]
          exact fun hagree => hany (List.any_eq_true.mpr ⟨row, hrow, hagree⟩)
        rw [List.filter_append, List.filter_singleton, hnew, cond_false, List.append_nil]
        symm
        rw [List.filter_eq_self]
        intro row hrow
        simp [hnone row (List.mem_filter.mp hrow).1]
    · have huntouched : ∀ row, untouched (pk t) t [Change.upsert table key new] row = true := by
        intro row
        simp [untouched, upsertedRows, ht]
      rw [act, if_neg ht]
      symm
      exact List.filter_eq_self.mpr fun row _ => huntouched row
  | update table key new =>
    have huntouched : ∀ row, untouched (pk t) t [Change.update table key new] row = true :=
      fun _ => rfl
    have hall : (rows.filter keep).filter (untouched (pk t) t [Change.update table key new]) =
        rows.filter keep := List.filter_eq_self.mpr fun row _ => huntouched row
    rw [hall, act]
    split_ifs with ht
    · subst ht
      unfold updateRows
      induction rows with
      | nil => rfl
      | cons row rest ih =>
        have hrest := ih (List.filter_eq_self.mpr fun r _ => huntouched r)
        rw [List.map_cons, List.filter_cons, List.filter_cons, hrest]
        cases hkeep : keep row with
        | true => simp [h.sought key new hmem row hkeep, hkeep]
        | false =>
          have hout := h.updated key new hmem row hkeep
          split_ifs <;> simp_all
    · rfl
  | delete table key =>
    have hall : (rows.filter keep).filter (untouched (pk t) t [Change.delete table key]) =
        rows.filter keep := List.filter_eq_self.mpr fun _ _ => rfl
    rw [hall, act]
    split_ifs with ht
    · subst ht
      unfold deleteRows
      rw [List.filter_filter]
      apply List.filter_congr
      intro row _
      cases hkeep : keep row with
      | true => simp [h.deleted key hmem row hkeep]
      | false => rfl
    · rfl

/-- What a log leaves of the kept rows. -/
theorem filter_foldl_act (pk : T → List C) {t : T} {changes : List (Change T C V)}
    {keep : Row C V → Bool} (h : Frames t changes keep) (rows : List (Row C V)) :
    (changes.foldl (act pk t) rows).filter keep =
      (rows.filter keep).filter (untouched (pk t) t changes) := by
  induction changes generalizing rows with
  | nil => exact (List.filter_eq_self.mpr fun _ _ => rfl).symm
  | cons change rest ih =>
    have hfirst : Frames t [change] keep :=
      h.mono fun _ hc => List.mem_singleton.mp hc ▸ List.mem_cons_self
    have hrest : Frames t rest keep := h.mono fun _ hc => List.mem_cons_of_mem _ hc
    rw [List.foldl_cons, ih hrest, filter_act hfirst, List.filter_filter, List.filter_filter,
      List.filter_filter]
    apply List.filter_congr
    intro row _
    have hsplit : untouched (pk t) t (change :: rest) row =
        (untouched (pk t) t [change] row && untouched (pk t) t rest row) := by
      unfold untouched
      rw [← List.all_append]
      congr 1
      unfold upsertedRows
      rw [← List.filterMap_append, List.singleton_append]
    rw [hsplit]
    cases keep row <;> cases untouched (pk t) t [change] row <;> simp

/-- The row names no parent, or one that is there. -/
def parented (fk : T → Option (T × C)) (isNull : V → Bool) (tables : T → List (Row C V)) (t : T)
    (row : Row C V) : Bool :=
  match fk t with
  | none => true
  | some (parent, column) =>
    (row column).all isNull || (tables parent).any fun p => p column == row column

omit [DecidableEq T] in
/-- A sweep keeps the rows that have their parents. -/
theorem sweep_eq_filter (fk : T → Option (T × C)) (isNull : V → Bool) (tables : T → List (Row C V))
    (t : T) : sweep fk isNull tables t = (tables t).filter (parented fk isNull tables t) := by
  unfold sweep parented
  cases fk t with
  | none => exact (List.filter_eq_self.mpr fun _ _ => rfl).symm
  | some link => rfl

end FactoryServer.RowFrames
