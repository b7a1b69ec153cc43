import FactoryServer.DeletedMatchUps
import FactoryServer.RebuiltRows

/-!
# Deletes of a batch against what it rebuilt

All deletes of a batch come last. Only the deletes of matchUps are held back
for what the batch rebuilt; a deleted draw, event, participant or venue takes
the rows of a re-creation under the same id with it. This module states when
every upserted row that the final record contains outlives the batch.
-/

namespace FactoryServer.BatchDeletes

open JsonValue TournamentAccess TournamentTree KeyedTables InsertionMaps ReadModelRows
open ProjectionDeltas IntentGroups ProjectionLogs RebuiltRows DeletedMatchUps

/-- The final record contains what the row is about. Rows of the other tables
are built from the final record. -/
def InFinal {model : ReadModel} (final : FinalState model) : ReadTable → ReadRow → Prop
  | .matchUps, row => ∃ t id, row "tournament_id" = some (.text t) ∧
    row "match_up_id" = some (.text id) ∧ InRecord final t id
  | .tournamentVenues, row => ∃ t record, row "tournament_id" = some (.text t) ∧
    final.records t = some record ∧
    ∃ venue ∈ record.venues, row "venue_id" = some (.text venue.venueId)
  | _, _ => True

/-- The tables that hold draws, structures, seeds, events, matchUps,
competitors, entries and venue links. -/
def contentTables : List ReadTable :=
  [.draws, .structures, .seeds, .events, .matchUps, .matchUpCompetitors, .entries,
    .tournamentVenues]

section Batch

variable (model : ReadModel) (final : FinalState model) (intents : List ProjectionIntent)

/-- Whatever the read model held, a row with the same primary key is there
after the batch. -/
def Outlives (table : ReadTable) (row : ReadRow) : Prop :=
  ∀ state, ∃ found ∈ project model final intents state table,
    agree (primaryKey table) found row = true

/-- Every row that the batch upserts and the final record contains outlives it. -/
def DeletesSpare : Prop :=
  ∀ table ∈ contentTables, ∀ key row,
    .upsert table key row ∈ (buildProjectionDeltas model final intents).map
      ProjectionDelta.change →
    InFinal final table row → Outlives model final intents table row

/-- No draw, event, participant or venue that the batch deletes can be that of
a row that it rebuilds. -/
def NoReuse : Prop :=
  ∀ table, ∀ row ∈ rebuiltRows model final intents table, InFinal final table row →
    ∀ key ∈ closingKeys intents table, ¬ Compatible
      (mergeAll ((rebuiltRows model final intents table).filter
        (agree (primaryKey table) · row))) key

variable {model final intents}

/-- What a table's statements leave in a slot decides whether a row outlives
the batch. -/
theorem outlives_iff_run {table : ReadTable} (hc : cascade table = none) {row : ReadRow}
    {run : List ReadRow → List ReadRow}
    (hrun : ∀ rows, (∀ r ∈ rows, agree (primaryKey table) r row = true) →
      (onTable table (buildProjectionDeltas model final intents)).foldl
        (actSlot primaryKey table row) rows = run rows) :
    Outlives model final intents table row ↔
      ∀ rows, (∀ r ∈ rows, agree (primaryKey table) r row = true) → run rows ≠ [] := by
  have hslot : ∀ state : ReadState,
      slot (primaryKey table) (project model final intents state table) row =
        run (slot (primaryKey table) (state table) row) := by
    intro state
    rw [project_of_no_cascade model final intents state hc, slot_build]
    exact hrun _ fun r hr => (List.mem_filter.mp hr).2
  have hfound : ∀ state : ReadState,
      (∃ found ∈ project model final intents state table,
        agree (primaryKey table) found row = true) ↔
      run (slot (primaryKey table) (state table) row) ≠ [] := by
    intro state
    rw [← hslot, Ne, List.eq_nil_iff_forall_not_mem]
    simp [slot]
  constructor
  · intro h rows hrows
    have hkeep : slot (primaryKey table) rows row = rows := List.filter_eq_self.mpr hrows
    have hstate := (hfound fun _ => rows).mp (h _)
    rwa [hkeep] at hstate
  · intro h state
    exact (hfound state).mpr (h _ fun r hr => (List.mem_filter.mp hr).2)

/-- The rows that the batch upserts into the slot of a row. -/
def newsOf (model : ReadModel) (final : FinalState model) (intents : List ProjectionIntent)
    (table : ReadTable) (row : ReadRow) : List ReadRow :=
  (rebuiltRows model final intents table).filter (agree (primaryKey table) · row)

theorem newsOf_ne_nil {table : ReadTable} {row : ReadRow}
    (h : row ∈ rebuiltRows model final intents table) :
    newsOf model final intents table row ≠ [] :=
  List.ne_nil_of_mem (List.mem_filter.mpr ⟨h, agree_refl _ row⟩)

theorem newsOf_agree {table : ReadTable} {row : ReadRow} :
    ∀ r ∈ newsOf model final intents table row, agree (primaryKey table) r row = true :=
  fun _ hr => (List.mem_filter.mp hr).2

/-- A table whose statements are upserts and then deletes. -/
theorem outlives_of_put_drop {table : ReadTable} (hc : cascade table = none)
    {keys : List (Key String Cell)}
    (hlog : onTable table (buildProjectionDeltas model final intents) =
      putRows table (rebuiltRows model final intents table) ++ dropKeys table keys)
    (hkeys : ∀ k ∈ keys, (k.map Prod.fst).Nodup ∧ ∀ e ∈ k, e.2 ≠ none) {row : ReadRow}
    (hrow : row ∈ rebuiltRows model final intents table)
    (hkey : ∀ c ∈ primaryKey table, row c ≠ none) :
    Outlives model final intents table row ↔
      ∀ key ∈ keys, ¬ Compatible (mergeAll (newsOf model final intents table row)) key := by
  have hrun : ∀ rows : List ReadRow, (∀ r ∈ rows, agree (primaryKey table) r row = true) →
      (onTable table (buildProjectionDeltas model final intents)).foldl
        (actSlot primaryKey table row) rows =
      (putAll (newsOf model final intents table row) rows).filter
        fun r => keys.all fun k => !matchesKey r k := by
    intro rows _
    rw [hlog, List.foldl_append]
    unfold putRows dropKeys
    rw [foldl_actSlot_upserts, foldl_actSlot_deletes]
    rfl
  rw [outlives_iff_run hc hrun, survives_iff hkey newsOf_agree hkeys]
  exact and_iff_right (newsOf_ne_nil hrow)

theorem matchUpRow_id {row : ReadRow} (h : row ∈ rebuiltRows model final intents .matchUps) :
    ∃ id, HasId id row := by
  rcases List.mem_append.mp h with h | h
  · obtain ⟨entry, -, h⟩ := List.mem_flatMap.mp h
    obtain ⟨matchUp, -, h⟩ := List.mem_flatMap.mp h
    exact (model.matchUpRow_keys _ _ row h).1
  · obtain ⟨entry, -, rfl⟩ := List.mem_map.mp h
    exact ⟨_, (model.matchUpResultRow_keys _ _ _).1⟩

/-- The cells of a primary key that a rebuilt row gives. -/
theorem rebuilt_key {table : ReadTable} {row : ReadRow}
    (h : row ∈ rebuiltRows model final intents table) :
    ∀ column ∈ primaryKey table, row column ≠ none := by
  cases table <;> simp only [rebuiltRows, List.not_mem_nil] at h
  case draws =>
    obtain ⟨entry, -, hrow⟩ := List.mem_filterMap.mp h
    simp [primaryKey, (drawRowOf_drawId model hrow).1]
  case events =>
    obtain ⟨t, -, hrow⟩ := List.mem_flatMap.mp h
    obtain ⟨event, -, hevent⟩ := List.mem_filterMap.mp hrow
    obtain ⟨id, hid, rfl⟩ := Option.map_eq_some_iff.mp hevent
    simp [primaryKey, (model.eventRow_keys _ _ _ _).1, (nonEmpty_eq_some.mp hid).1, idCell]
  case seeds =>
    obtain ⟨entry, -, hrow⟩ := List.mem_flatMap.mp h
    obtain ⟨ctx, seed, rfl, -⟩ := seedRowsOf_row model hrow
    simp [primaryKey, (model.seedRow_keys seed ctx).1, (model.seedRow_keys seed ctx).2.1]
  case matchUps =>
    rcases List.mem_append.mp h with h | h
    · obtain ⟨entry, -, h⟩ := List.mem_flatMap.mp h
      obtain ⟨matchUp, -, h⟩ := List.mem_flatMap.mp h
      obtain ⟨⟨id, hid⟩, -⟩ := model.matchUpRow_keys _ _ row h
      simp [primaryKey, hid]
    · obtain ⟨entry, -, rfl⟩ := List.mem_map.mp h
      simp [primaryKey, resultRow, (model.matchUpResultRow_keys _ _ _).1]
  case entries =>
    obtain ⟨t, -, hrow⟩ := List.mem_flatMap.mp h
    cases hrecord : final.records t with
    | none =>
      rw [hrecord, model.entryRows_none] at hrow
      cases hrow
    | some record =>
      rw [hrecord] at hrow
      obtain ⟨htournament, hevent, hparticipant⟩ := model.entryRow_keys record row hrow
      simp [primaryKey, htournament, hevent, hparticipant]
  case tournamentVenues =>
    obtain ⟨entry, -, rfl⟩ := List.mem_map.mp h
    simp [primaryKey, linkRow, model.venueRow_keys]

/-- The rows of a tournament's entries carry the tournament. -/
theorem entryRows_tournament {t : String} {row : ReadRow}
    (h : row ∈ model.entryRows (final.records t)) : row "tournament_id" = some (.text t) := by
  cases hrecord : final.records t with
  | none =>
    rw [hrecord, model.entryRows_none] at h
    cases h
  | some record =>
    rw [hrecord] at h
    rw [(model.entryRow_keys record row h).1, final.own t record hrecord]

/-- Draws, events and venue links are upserted and then deleted. -/
theorem outlives_plain {table : ReadTable}
    (ht : table = .draws ∨ table = .events ∨ table = .tournamentVenues) {row : ReadRow}
    (hrow : row ∈ rebuiltRows model final intents table) :
    Outlives model final intents table row ↔ ∀ key ∈ closingKeys intents table,
      ¬ Compatible (mergeAll (newsOf model final intents table row)) key := by
  have hkeys : ∀ k ∈ closingKeys intents table,
      (k.map Prod.fst).Nodup ∧ ∀ e ∈ k, e.2 ≠ none := fun k hk => closingKeys_ids hk
  have hpk := rebuilt_key hrow
  rcases ht with rfl | rfl | rfl
  · exact outlives_of_put_drop rfl (onTable_draws model final intents) hkeys hrow hpk
  · exact outlives_of_put_drop rfl (onTable_events model final intents) hkeys hrow hpk
  · exact outlives_of_put_drop rfl (onTable_tournamentVenues model final intents) hkeys hrow hpk

/-- A delete by matchUp id never reaches a matchUp that the batch rebuilt. -/
theorem outlives_matchUps {row : ReadRow}
    (hrow : row ∈ rebuiltRows model final intents .matchUps) :
    Outlives model final intents .matchUps row ↔ ∀ key ∈ closingKeys intents .matchUps,
      ¬ Compatible (mergeAll (newsOf model final intents .matchUps row)) key := by
  have hlog : onTable .matchUps (buildProjectionDeltas model final intents) =
      putRows .matchUps (rebuiltRows model final intents .matchUps) ++
        dropKeys .matchUps (allKeys model final intents) := by
    rw [onTable_matchUps]
    simp only [putRows, dropKeys, rebuiltRows, allKeys, List.map_append]
    rfl
  rw [outlives_of_put_drop rfl hlog (allKeys_ids model final intents) hrow (rebuilt_key hrow)]
  have hsame : sweepKeys intents = closingKeys intents .matchUps := rfl
  constructor
  · intro h key hkey
    exact h key ((mem_allKeys model final intents).mpr (Or.inl (hsame ▸ hkey)))
  · intro h key hkey hcompatible
    rcases (mem_allKeys model final intents).mp hkey with hsweep | hreach
    · exact h key (hsame ▸ hsweep) hcompatible
    · obtain ⟨id, hid⟩ := matchUpRow_id hrow
      have hmerged : HasId id (mergeAll (newsOf model final intents .matchUps row)) := by
        have hagree := agree_mergeAll (newsOf_ne_nil hrow) newsOf_agree
        have hcell := agree_iff.mp hagree "match_up_id" (by simp [primaryKey])
        exact hcell.trans hid
      obtain ⟨-, -, -, hflat, hresult⟩ :=
        matchUpKeys_reach model final intents id hmerged hreach hcompatible
      rcases List.mem_append.mp hrow with hmem | hmem
      · exact hflat ⟨row, hmem, hid⟩
      · obtain ⟨entry, he, rfl⟩ := List.mem_map.mp hmem
        have hentry : entry ∈ (group intents final.records).matchUpResults :=
          (List.mem_filter.mp he).1
        have hid' : entry.1 = id := by
          have hkeyed := (group_results model final intents).1 entry hentry
          unfold HasId resultRow at hid
          rw [(model.matchUpResultRow_keys _ _ _).1, ← hkeyed] at hid
          simpa using hid
        rw [group_eq] at hentry
        have hsome : lastOf entry.1 (intents.flatMap resultPairs) = some entry.2 :=
          mem_mapOf.mp hentry
        rw [hid', hresult] at hsome
        cases hsome

/-- Where other items contribute nothing, a flattened list is one item's. -/
theorem flatMap_of_single {A B : Type} {items : List A} {item : A} (hmem : item ∈ items)
    (hn : items.Nodup) {f : A → List B} (h : ∀ other ∈ items, other ≠ item → f other = []) :
    items.flatMap f = f item := by
  obtain ⟨before, after, rfl⟩ := List.append_of_mem hmem
  rw [List.nodup_append] at hn
  have hbefore : before.flatMap f = [] := by
    rw [List.flatMap_eq_nil_iff]
    intro other hother
    apply h other (List.mem_append_left _ hother)
    rintro rfl
    exact hn.2.2 other hother other List.mem_cons_self rfl
  have hafter : after.flatMap f = [] := by
    rw [List.flatMap_eq_nil_iff]
    intro other hother
    apply h other (List.mem_append_right _ (List.mem_cons_of_mem _ hother))
    rintro rfl
    exact (List.nodup_cons.mp hn.2.1).1 hother
  rw [List.flatMap_append, List.flatMap_cons, hbefore, hafter, List.nil_append, List.append_nil]

/-- A refresh of other rows leaves a slot alone. -/
theorem refresh_fixes {table : ReadTable} {row : ReadRow} {key : Key String Cell}
    {fresh rows : List ReadRow} (hkey : ∀ r ∈ rows, matchesKey r key = false)
    (hfresh : ∀ r ∈ fresh, agree (primaryKey table) r row = false) :
    (dropKeys table [key] ++ putRows table fresh).foldl (actSlot primaryKey table row) rows =
      rows := by
  have hnone : fresh.filter (agree (primaryKey table) · row) = [] := by
    rw [List.filter_eq_nil_iff]
    intro r hr
    simp [hfresh r hr]
  unfold dropKeys putRows
  rw [List.foldl_append, foldl_actSlot_deletes, foldl_actSlot_upserts, hnone]
  simp only [putAll, if_true]
  rw [List.filter_eq_self]
  intro r hr
  simp [hkey r hr]

/-- A refresh of the slot drops the rows of its key and merges the fresh ones. -/
theorem refresh_run (table : ReadTable) (row : ReadRow) (key : Key String Cell)
    (fresh rows : List ReadRow) :
    (dropKeys table [key] ++ putRows table fresh).foldl (actSlot primaryKey table row) rows =
      putAll (fresh.filter (agree (primaryKey table) · row))
        (rows.filter fun r => !matchesKey r key) := by
  unfold dropKeys putRows
  rw [List.foldl_append, foldl_actSlot_deletes, foldl_actSlot_upserts]
  simp

theorem putAll_agree {pk : List String} {row : ReadRow} {news rows : List ReadRow}
    (hnews : ∀ r ∈ news, agree pk r row = true) (hrows : ∀ r ∈ rows, agree pk r row = true) :
    ∀ r ∈ putAll news rows, agree pk r row = true := by
  intro r hr
  by_cases hne : news = []
  · rw [putAll, if_pos hne] at hr
    exact hrows r hr
  · have hmerged := agree_iff.mp (agree_mergeAll hne hnews)
    rw [putAll, if_neg hne] at hr
    split_ifs at hr with hnil
    · rw [List.mem_singleton.mp hr]
      exact agree_mergeAll hne hnews
    · obtain ⟨old, hold, rfl⟩ := List.mem_map.mp hr
      rw [agree_iff]
      intro column hcolumn
      have holdcell := agree_iff.mp (hrows old hold) column hcolumn
      simp only [merge, hmerged column hcolumn, holdcell, Option.or_self]

/-- A table that is refreshed item by item, edited and then deleted from. The
items are refreshed by keys and rows that do not meet in one slot. -/
theorem outlives_of_refresh {A : Type} {table : ReadTable} (hc : cascade table = none)
    {items : List A} {item : A} (hitem : item ∈ items) (hn : items.Nodup) (active : A → Bool)
    (key : A → Key String Cell) {fresh : A → List ReadRow} (edits : List ReadChange)
    (hlog : onTable table (buildProjectionDeltas model final intents) =
      (items.flatMap fun a => if active a = true then
        dropKeys table [key a] ++ putRows table (fresh a) else []) ++ edits ++
        dropKeys table (closingKeys intents table))
    (hrebuilt : rebuiltRows model final intents table = items.flatMap fresh)
    (hactive : active item = true)
    (hedits : ∀ change ∈ edits, ∃ k r, change = .update table k r ∧
      ∀ column ∈ closingColumns, r column = none)
    {row : ReadRow} (hrow : row ∈ fresh item)
    (hother : ∀ other ∈ items, other ≠ item →
      (∀ r ∈ fresh other, agree (primaryKey table) r row = false) ∧
        ∀ r, agree (primaryKey table) r row = true → matchesKey r (key other) = false)
    (hopen : ∀ k ∈ closingKeys intents table,
      matchesKey (filler (primaryKey table) row (newsOf model final intents table row) k)
          (key item) = false ∨
        ∀ e ∈ k, mergeAll (newsOf model final intents table row) e.1 ≠ none) :
    Outlives model final intents table row ↔ ∀ k ∈ closingKeys intents table,
      ¬ Compatible (mergeAll (newsOf model final intents table row)) k := by
  have hmem : row ∈ rebuiltRows model final intents table := by
    rw [hrebuilt]
    exact List.mem_flatMap.mpr ⟨item, hitem, hrow⟩
  have hnews : newsOf model final intents table row =
      (fresh item).filter (agree (primaryKey table) · row) := by
    unfold newsOf
    rw [hrebuilt, List.filter_flatMap, flatMap_of_single hitem hn]
    intro other hother' hne
    rw [List.filter_eq_nil_iff]
    intro r hr
    simp [(hother other hother' hne).1 r hr]
  obtain ⟨edit, hedit, hfold⟩ := foldl_actSlot_updates primaryKey table row hedits
  have hcaught : ∀ r, ((closingKeys intents table).all fun k => !matchesKey (edit r) k) =
      (closingKeys intents table).all fun k => !matchesKey r k := by
    intro r
    rw [Bool.eq_iff_iff, List.all_eq_true, List.all_eq_true]
    refine forall_congr' fun k => forall_congr' fun hk => ?_
    have hsame : matchesKey (edit r) k = matchesKey r k := by
      rw [Bool.eq_iff_iff, matchesKey_iff, matchesKey_iff]
      refine forall_congr' fun e => forall_congr' fun he => ?_
      rw [hedit r e.1 (closingKeys_columns hk e he)]
    rw [hsame]
  have hrun : ∀ rows : List ReadRow, (∀ r ∈ rows, agree (primaryKey table) r row = true) →
      (onTable table (buildProjectionDeltas model final intents)).foldl
        (actSlot primaryKey table row) rows =
      ((putAll (newsOf model final intents table row)
        (rows.filter fun r => !matchesKey r (key item))).filter
          fun r => (closingKeys intents table).all fun k => !matchesKey r k).map edit := by
    intro rows hrows
    rw [hlog, List.foldl_append, List.foldl_append, foldl_flatMap_of_fixed hitem hn
      (P := fun rows => ∀ r ∈ rows, agree (primaryKey table) r row = true) _ _ hrows,
      if_pos hactive, refresh_run, hfold, hnews]
    · have hdrop := foldl_actSlot_deletes primaryKey table row (closingKeys intents table)
      rw [dropKeys, hdrop, List.filter_map]
      exact congrArg (List.map edit) (List.filter_congr fun r _ => hcaught r)
    · intro other hother' hne rest hrest
      obtain ⟨hfresh, hkey⟩ := hother other hother' hne
      split_ifs
      · exact refresh_fixes (fun r hr => hkey r (hrest r hr)) hfresh
      · rfl
    · intro rest hrest
      rw [if_pos hactive, refresh_run]
      apply putAll_agree
      · exact fun r hr => (List.mem_filter.mp hr).2
      · exact fun r hr => hrest r (List.mem_filter.mp hr).1
  have hsurvives := survives_refresh_iff (fun r => !matchesKey r (key item))
    (rebuilt_key hmem) newsOf_agree (fun k hk => closingKeys_ids hk)
    fun k hk => (hopen k hk).imp_left fun h => by simp [h]
  refine (outlives_iff_run hc hrun).trans ?_
  simp only [ne_eq, List.map_eq_nil_iff]
  exact hsurvives.trans (and_iff_right (newsOf_ne_nil hmem))

theorem seedRows_cells {structureId t : String} {row : ReadRow}
    (h : row ∈ seedRowsOf model final.records structureId t) :
    row "structure_id" = some (.text structureId) ∧ row "tournament_id" = some (.text t) := by
  obtain ⟨ctx, seed, rfl, rfl, rfl⟩ := seedRowsOf_row model h
  have hkeys := model.seedRow_keys seed ctx
  exact ⟨hkeys.1, hkeys.2.2.2.2⟩

theorem seedRows_record {structureId t : String} {row : ReadRow}
    (h : row ∈ seedRowsOf model final.records structureId t) : (final.records t).isSome := by
  unfold seedRowsOf at h
  cases hr : final.records t with
  | none =>
    rw [hr] at h
    cases h
  | some record => rfl

/-- Seeds are refreshed structure by structure and then deleted. -/
theorem outlives_seeds {row : ReadRow} (hrow : row ∈ rebuiltRows model final intents .seeds) :
    Outlives model final intents .seeds row ↔ ∀ key ∈ closingKeys intents .seeds,
      ¬ Compatible (mergeAll (newsOf model final intents .seeds row)) key := by
  obtain ⟨⟨structureId, t⟩, hitem, hseed⟩ := List.mem_flatMap.mp hrow
  have hrecord := seedRows_record hseed
  have hcell := (seedRows_cells hseed).1
  refine outlives_of_refresh rfl hitem ((nodup_mapOf _).of_map _)
    (fun entry => (final.records entry.2).isSome)
    (fun entry => idKey [("tournament_id", entry.2), ("structure_id", entry.1)]) [] ?_ rfl hrecord
    (fun _ h => by cases h) hseed ?_ ?_
  · rw [onTable_seeds, List.append_nil]
    rfl
  · intro other hother hne
    have hid : other.1 ≠ structureId := fun h => hne (entry_ext hother hitem h)
    constructor
    · intro r hr
      rw [Bool.eq_false_iff]
      intro hagree
      have hsame := agree_iff.mp hagree "structure_id" (by simp [primaryKey])
      rw [(seedRows_cells hr).1, hcell] at hsame
      exact hid (by simpa using hsame)
    · intro r hagree
      rw [Bool.eq_false_iff]
      intro hmatch
      have hsame := agree_iff.mp hagree "structure_id" (by simp [primaryKey])
      have hasked := matchesKey_iff.mp hmatch ("structure_id", some (.text other.1))
        (by simp [idKey])
      dsimp only at hasked
      rw [hsame, hcell] at hasked
      exact hid (by simpa using hasked.symm)
  · intro k _
    left
    have hmerged : ∃ v, mergeAll (newsOf model final intents .seeds row) "tournament_id" =
        some v ∧ True := by
      apply mergeAll_cell (newsOf_ne_nil hrow)
      intro r hr
      obtain ⟨entry, -, hr⟩ := List.mem_flatMap.mp (List.mem_filter.mp hr).1
      exact ⟨_, (seedRows_cells hr).2, trivial⟩
    obtain ⟨v, hv, -⟩ := hmerged
    have hopen : filler (primaryKey .seeds) row (newsOf model final intents .seeds row) k
        "tournament_id" = none := by
      simp [filler, primaryKey, hv]
    simp [matchesKey, idKey, hopen]

/-- Entries are refreshed tournament by tournament, claimed and then deleted. -/
theorem outlives_entries {row : ReadRow} (hrow : row ∈ rebuiltRows model final intents .entries) :
    Outlives model final intents .entries row ↔ ∀ key ∈ closingKeys intents .entries,
      ¬ Compatible (mergeAll (newsOf model final intents .entries row)) key := by
  obtain ⟨t, hitem, hentry⟩ := List.mem_flatMap.mp hrow
  have hcell := entryRows_tournament hentry
  refine outlives_of_refresh rfl hitem (nodup_setOf _) (fun _ => true)
    (fun t => idKey [("tournament_id", t)])
    (onTable .entries (claimDeltas (group intents final.records))) ?_ rfl rfl
    (claim_updates _) hentry ?_ ?_
  · rw [onTable_entries]
    rfl
  · intro other hother hne
    constructor
    · intro r hr
      rw [Bool.eq_false_iff]
      intro hagree
      have hsame := agree_iff.mp hagree "tournament_id" (by simp [primaryKey])
      rw [entryRows_tournament hr, hcell] at hsame
      exact hne (by simpa using hsame)
    · intro r hagree
      rw [Bool.eq_false_iff]
      intro hmatch
      have hsame := agree_iff.mp hagree "tournament_id" (by simp [primaryKey])
      have hasked := matchesKey_iff.mp hmatch ("tournament_id", some (.text other))
        (by simp [idKey])
      dsimp only at hasked
      rw [hsame, hcell] at hasked
      exact hne (by simpa using hasked.symm)
  · intro k hk
    right
    intro e he
    have hmerged := agree_iff.mp (agree_mergeAll (newsOf_ne_nil hrow) newsOf_agree)
    have hcolumn := entryKeys_columns hk e he
    rw [hmerged e.1 hcolumn]
    exact rebuilt_key hrow e.1 hcolumn

/-- A re-projected draw that the final record has. -/
def LiveDraw (model : ReadModel) (final : FinalState model) (entry : String × String) : Prop :=
  (drawRowOf model final.records entry.1 entry.2).isSome

/-- A structure that some re-projected draw upserts stays in the slot, under a
re-projected draw: refreshes of other draws do not reach it. -/
theorem structures_run {row : ReadRow} (items : List (String × String))
    (hn : (items.map Prod.fst).Nodup) (rows : List ReadRow)
    (h : (∃ r ∈ rows, ∃ d ∉ items.map Prod.fst, r "draw_id" = some (.text d) ∧
        ∃ t, (d, t) ∈ mapOf (intents.flatMap drawPairs) ∧ LiveDraw model final (d, t)) ∨
      ∃ entry ∈ items, ∃ key r, agree (primaryKey .structures) r row = true ∧
        .upsert .structures key r ∈
          onTable .structures (drawDeltasOf model final.records entry.1 entry.2))
    (hsub : items ⊆ mapOf (intents.flatMap drawPairs)) :
    ∃ r ∈ (items.flatMap fun entry =>
        onTable .structures (drawDeltasOf model final.records entry.1 entry.2)).foldl
          (actSlot primaryKey .structures row) rows,
      ∃ d t, r "draw_id" = some (.text d) ∧ (d, t) ∈ mapOf (intents.flatMap drawPairs) ∧
        LiveDraw model final (d, t) := by
  induction items generalizing rows with
  | nil =>
    rcases h with ⟨r, hr, d, -, hd, t, hmem, hlive⟩ | ⟨entry, hentry, -⟩
    · exact ⟨r, hr, d, t, hd, hmem, hlive⟩
    · cases hentry
  | cons entry rest ih =>
    obtain ⟨hfresh, hrest⟩ := List.nodup_cons.mp hn
    obtain ⟨structures, hcells, hlog⟩ :=
      onTable_drawDeltasOf_structures model final.records entry.1 entry.2
    have hsub' : rest ⊆ mapOf (intents.flatMap drawPairs) :=
      fun _ he => hsub (List.mem_cons_of_mem _ he)
    rw [List.flatMap_cons, List.foldl_append]
    by_cases hlive : (drawRowOf model final.records entry.1 entry.2).isSome
    · rw [if_pos hlive] at hlog
      rw [hlog, refresh_run]
      by_cases hnews : structures.filter (agree (primaryKey .structures) · row) = []
      · refine ih hrest _ ?_ hsub'
        rw [hnews]
        rcases h with ⟨r, hr, d, hd, hcell, hdraw⟩ | ⟨other, hother, key, r, hagree, hmem⟩
        · left
          refine ⟨r, ?_, d, fun he => hd (List.mem_cons_of_mem _ he), hcell, hdraw⟩
          refine List.mem_filter.mpr ⟨hr, ?_⟩
          have hne : d ≠ entry.1 := fun he => hd (by simp [he])
          simp [matchesKey, idKey, hcell, hne]
        · right
          rcases List.mem_cons.mp hother with rfl | hother
          · rw [hlog, List.mem_append, mem_putRows] at hmem
            have hput := (hmem.resolve_left not_mem_dropKeys).1
            exact absurd hagree (by simpa using List.filter_eq_nil_iff.mp hnews r hput)
          · exact ⟨other, hother, key, r, hagree, hmem⟩
      · refine ih hrest _ (Or.inl ?_) hsub'
        obtain ⟨r, hr⟩ := List.exists_mem_of_ne_nil _
          (putAll_ne_nil hnews (rows.filter fun r => !matchesKey r
            (idKey [("tournament_id", entry.2), ("draw_id", entry.1)])))
        have hmerged : ∃ v, mergeAll (structures.filter (agree (primaryKey .structures) · row))
            "draw_id" = some v ∧ v = .text entry.1 := by
          apply mergeAll_cell hnews
          intro s hs
          exact ⟨_, hcells s (List.mem_filter.mp hs).1, rfl⟩
        obtain ⟨v, hv, rfl⟩ := hmerged
        exact ⟨r, hr, entry.1, hfresh, extends_of_mem_putAll hnews hr _ _ hv, entry.2,
          hsub List.mem_cons_self, hlive⟩
    · rw [if_neg hlive] at hlog
      rw [hlog, List.foldl_nil]
      refine ih hrest _ ?_ hsub'
      rcases h with ⟨r, hr, d, hd, hcell, hdraw⟩ | ⟨other, hother, key, r, hagree, hmem⟩
      · exact Or.inl ⟨r, hr, d, fun he => hd (List.mem_cons_of_mem _ he), hcell, hdraw⟩
      · right
        rcases List.mem_cons.mp hother with rfl | hother
        · rw [hlog] at hmem
          cases hmem
        · exact ⟨other, hother, key, r, hagree, hmem⟩

/-- A row of a child table outlives the batch when its slot keeps a row whose
parent is there. -/
theorem outlives_of_parent {table : ReadTable} (parent : ReadTable) (column : String)
    (hc : cascade table = some (parent, column)) (hp : cascade parent = none) {row : ReadRow}
    (h : ∀ state : ReadState, ∃ r ∈ (onTable table (buildProjectionDeltas model final intents)).foldl
        (actSlot primaryKey table row) (slot (primaryKey table) (state table) row),
      ∃ found ∈ project model final intents state parent, found column = r column) :
    Outlives model final intents table row := by
  intro state
  obtain ⟨r, hr, found, hfound, hcell⟩ := h state
  rw [← slot_build] at hr
  obtain ⟨hmem, hagree⟩ := List.mem_filter.mp hr
  refine ⟨r, ?_, hagree⟩
  rw [project_of_no_cascade model final intents state hp] at hfound
  unfold project applyDeltas sweep
  rw [hc]
  refine List.mem_filter.mpr ⟨hmem, ?_⟩
  rw [Bool.or_eq_true, List.any_eq_true]
  exact Or.inr ⟨found, hfound, by simp [hcell]⟩

/-- Structures outlive the batch when the re-projected draws do. -/
theorem outlives_structures
    (hdraws : ∀ row ∈ rebuiltRows model final intents .draws,
      Outlives model final intents .draws row)
    {key : Key String Cell} {row : ReadRow}
    (hrow : .upsert .structures key row ∈
      onTable .structures (buildProjectionDeltas model final intents)) :
    Outlives model final intents .structures row := by
  rw [onTable_structures] at hrow
  obtain ⟨entry, hentry, hmem⟩ := List.mem_flatMap.mp hrow
  refine outlives_of_parent .draws "draw_id" rfl rfl fun state => ?_
  rw [onTable_structures]
  obtain ⟨r, hr, d, t, hcell, hdraw, hlive⟩ := structures_run _ (nodup_mapOf _)
    (slot (primaryKey .structures) (state .structures) row)
    (Or.inr ⟨entry, hentry, key, row, agree_refl _ row, hmem⟩) (List.Subset.refl _)
  obtain ⟨parent, hparent⟩ := Option.isSome_iff_exists.mp hlive
  obtain ⟨found, hfound, hagree⟩ := hdraws parent
    (List.mem_filterMap.mpr ⟨(d, t), hdraw, hparent⟩) state
  refine ⟨r, hr, found, hfound, ?_⟩
  rw [agree_iff.mp hagree "draw_id" (by simp [primaryKey]), hcell,
    (drawRowOf_drawId model hparent).1]

/-- Competitors outlive the batch when the flattened matchUps do. -/
theorem outlives_competitors
    (hmatchUps : ∀ row ∈ rebuiltRows model final intents .matchUps,
      InFinal final .matchUps row → Outlives model final intents .matchUps row)
    {row : ReadRow}
    (hrow : row ∈ competitorRows model final (group intents final.records)) :
    Outlives model final intents .matchUpCompetitors row := by
  obtain ⟨entry, hentry, hmem⟩ := List.mem_flatMap.mp hrow
  obtain ⟨matchUp, hmatchUp, hcompetitor⟩ := List.mem_flatMap.mp hmem
  obtain ⟨parent, hparent, hid⟩ := model.competitorRow_parent _ _ row hcompetitor
  have hbuilt : parent ∈ rebuiltRows model final intents .matchUps :=
    List.mem_append_left _ (List.mem_flatMap.mpr
      ⟨entry, hentry, List.mem_flatMap.mpr ⟨matchUp, hmatchUp, hparent⟩⟩)
  obtain ⟨record, id, hrecord, hin, hcell⟩ :=
    final.flattened _ _ matchUp hmatchUp parent hparent
  have hfinal : InFinal final .matchUps parent :=
    ⟨_, id, (model.matchUpRow_keys _ _ parent hparent).2, hcell, record, hrecord, hin⟩
  refine outlives_of_parent .matchUps "match_up_id" rfl rfl fun state => ?_
  obtain ⟨found, hfound, hagree⟩ := hmatchUps parent hbuilt hfinal state
  have hedits : ∀ change ∈
      onTable .matchUpCompetitors (claimDeltas (group intents final.records)) ++
        (participantNameDeltas (group intents final.records)).map ProjectionDelta.change,
      ∃ key r, change = .update .matchUpCompetitors key r ∧
        ∀ column ∈ primaryKey .matchUpCompetitors, r column = none := by
    intro change hchange
    rcases List.mem_append.mp hchange with hchange | hchange
    · obtain ⟨hmem, htable⟩ := List.mem_filter.mp hchange
      obtain ⟨d, hd, rfl⟩ := List.mem_map.mp hmem
      obtain ⟨claim, -, hd⟩ := List.mem_flatMap.mp hd
      simp only [List.mem_cons, List.not_mem_nil, or_false] at hd
      rcases hd with rfl | rfl
      · exact ⟨_, _, rfl, by simp [rowOf, primaryKey]⟩
      · simp [update, Change.table] at htable
    · obtain ⟨d, hd, rfl⟩ := List.mem_map.mp hchange
      obtain ⟨name, -, hd⟩ := List.mem_flatMap.mp hd
      simp only [List.mem_cons, List.not_mem_nil, or_false] at hd
      rcases hd with rfl | rfl <;> exact ⟨_, _, rfl, by simp [rowOf, primaryKey]⟩
  obtain ⟨edit, hedit, hfold⟩ :=
    foldl_actSlot_updates primaryKey ReadTable.matchUpCompetitors row hedits
  have hnews : (competitorRows model final (group intents final.records)).filter
      (agree (primaryKey .matchUpCompetitors) · row) ≠ [] :=
    List.ne_nil_of_mem (List.mem_filter.mpr ⟨hrow, agree_refl _ row⟩)
  obtain ⟨r, hr⟩ := List.exists_mem_of_ne_nil _ (putAll_ne_nil hnews
    (slot (primaryKey .matchUpCompetitors) (state .matchUpCompetitors) row))
  have hslot : agree (primaryKey .matchUpCompetitors) r row = true := by
    refine putAll_agree (fun _ h => (List.mem_filter.mp h).2) ?_ r hr
    exact fun _ h => (List.mem_filter.mp h).2
  refine ⟨edit r, ?_, found, hfound, ?_⟩
  · rw [onTable_matchUpCompetitors, List.append_assoc, List.foldl_append, hfold]
    unfold putRows
    rw [foldl_actSlot_upserts]
    exact List.mem_map_of_mem hr
  · have hkey : "match_up_id" ∈ primaryKey .matchUpCompetitors := by simp [primaryKey]
    rw [agree_iff.mp hagree "match_up_id" (by simp [primaryKey]), hid,
      hedit r "match_up_id" hkey, agree_iff.mp hslot "match_up_id" hkey]

/-- The statements of a table, among those of the log. -/
theorem mem_onTable {table : ReadTable} {key : Key String Cell} {row : ReadRow} :
    .upsert table key row ∈ (buildProjectionDeltas model final intents).map
      ProjectionDelta.change ↔
    .upsert table key row ∈ onTable table (buildProjectionDeltas model final intents) := by
  unfold onTable
  rw [List.mem_filter]
  simp [Change.table]

/-- The tables whose rows the last deletes reach themselves. -/
def rebuiltTables : List ReadTable :=
  [.draws, .seeds, .events, .matchUps, .entries, .tournamentVenues]

/-- The rows of these tables that a batch upserts are the rebuilt ones. -/
theorem upserted_iff {table : ReadTable} (ht : table ∈ rebuiltTables) {row : ReadRow} :
    (∃ key, .upsert table key row ∈ (buildProjectionDeltas model final intents).map
      ProjectionDelta.change) ↔ row ∈ rebuiltRows model final intents table := by
  simp only [mem_onTable]
  simp only [rebuiltTables, List.mem_cons, List.not_mem_nil, or_false] at ht
  rcases ht with rfl | rfl | rfl | rfl | rfl | rfl
  · simp [onTable_draws, mem_putRows, not_mem_dropKeys]
  · simp only [onTable_seeds, List.mem_append, List.mem_flatMap, not_mem_dropKeys, or_false]
    constructor
    · rintro ⟨key, entry, hentry, hmem⟩
      unfold seedRefresh at hmem
      split_ifs at hmem
      · rw [List.mem_append, mem_putRows] at hmem
        exact List.mem_flatMap.mpr
          ⟨entry, hentry, (hmem.resolve_left not_mem_dropKeys).1⟩
      · cases hmem
    · intro hrow
      obtain ⟨entry, hentry, hseed⟩ := List.mem_flatMap.mp hrow
      refine ⟨keyOf row (primaryKey .seeds), entry, hentry, ?_⟩
      unfold seedRefresh
      rw [if_pos (seedRows_record hseed), List.mem_append, mem_putRows]
      exact Or.inr ⟨hseed, rfl⟩
  · simp [onTable_events, mem_putRows, not_mem_dropKeys]
  · rw [onTable_matchUps]
    simp only [rebuiltRows, List.mem_append, List.mem_map, Change.upsert.injEq, true_and,
      reduceCtorEq, and_false, exists_const, or_false]
    constructor
    · rintro ⟨key, ⟨r, hr, -, rfl⟩ | ⟨r, hr, -, rfl⟩⟩
      · exact Or.inl hr
      · exact Or.inr hr
    · rintro (hr | hr)
      · exact ⟨_, Or.inl ⟨row, hr, rfl, rfl⟩⟩
      · exact ⟨_, Or.inr ⟨row, hr, rfl, rfl⟩⟩
  · simp only [onTable_entries, List.mem_append, List.mem_flatMap, not_mem_dropKeys, or_false]
    constructor
    · rintro ⟨key, ⟨t, ht, hmem⟩ | hmem⟩
      · rw [entryRefresh, List.mem_append, mem_putRows] at hmem
        exact List.mem_flatMap.mpr ⟨t, ht, (hmem.resolve_left not_mem_dropKeys).1⟩
      · obtain ⟨k, r, he, -⟩ := claim_updates _ _ hmem
        cases he
    · intro hrow
      obtain ⟨t, ht, hentry⟩ := List.mem_flatMap.mp hrow
      refine ⟨keyOf row (primaryKey .entries), Or.inl ⟨t, ht, ?_⟩⟩
      rw [entryRefresh, List.mem_append, mem_putRows]
      exact Or.inr ⟨hentry, rfl⟩
  · simp [onTable_tournamentVenues, mem_putRows, not_mem_dropKeys]

/-- Row by row: a rebuilt row outlives the batch when no closing key can be its own. -/
theorem outlives_rebuilt {table : ReadTable} (ht : table ∈ rebuiltTables) {row : ReadRow}
    (hrow : row ∈ rebuiltRows model final intents table) :
    Outlives model final intents table row ↔ ∀ key ∈ closingKeys intents table,
      ¬ Compatible (mergeAll (newsOf model final intents table row)) key := by
  simp only [rebuiltTables, List.mem_cons, List.not_mem_nil, or_false] at ht
  rcases ht with rfl | rfl | rfl | rfl | rfl | rfl
  · exact outlives_plain (Or.inl rfl) hrow
  · exact outlives_seeds hrow
  · exact outlives_plain (Or.inr (Or.inl rfl)) hrow
  · exact outlives_matchUps hrow
  · exact outlives_entries hrow
  · exact outlives_plain (Or.inr (Or.inr rfl)) hrow

theorem mem_rebuiltTables {table : ReadTable} {row : ReadRow}
    (hrow : row ∈ rebuiltRows model final intents table) : table ∈ rebuiltTables := by
  cases table <;> first | decide | cases hrow

/-- The deletes of a batch spare what it rebuilt exactly when no id that the
batch deletes is that of something it rebuilt. -/
theorem deletes_spare_iff (model : ReadModel) (final : FinalState model)
    (intents : List ProjectionIntent) :
    DeletesSpare model final intents ↔ NoReuse model final intents := by
  constructor
  · intro h table row hrow hfinal
    have ht := mem_rebuiltTables hrow
    obtain ⟨key, hkey⟩ := (upserted_iff ht).mpr hrow
    have hcontent : table ∈ contentTables := by
      simp only [rebuiltTables, List.mem_cons, List.not_mem_nil, or_false] at ht
      rcases ht with rfl | rfl | rfl | rfl | rfl | rfl <;> simp [contentTables]
    exact (outlives_rebuilt ht hrow).mp (h table hcontent key row hkey hfinal)
  · intro h
    have hrebuilt : ∀ table, ∀ row ∈ rebuiltRows model final intents table,
        InFinal final table row → Outlives model final intents table row :=
      fun table row hrow hfinal =>
        (outlives_rebuilt (mem_rebuiltTables hrow) hrow).mpr (h table row hrow hfinal)
    intro table ht key row hmem hfinal
    by_cases hself : table ∈ rebuiltTables
    · exact hrebuilt table row ((upserted_iff hself).mp ⟨key, hmem⟩) hfinal
    · rw [mem_onTable] at hmem
      simp only [contentTables, List.mem_cons, List.not_mem_nil, or_false] at ht
      rcases ht with rfl | rfl | rfl | rfl | rfl | rfl | rfl | rfl
      case inr.inl =>
        exact outlives_structures (fun r hr => hrebuilt .draws r hr trivial) hmem
      case inr.inr.inr.inr.inr.inl =>
        refine outlives_competitors (hrebuilt .matchUps) ?_
        rw [onTable_matchUpCompetitors, List.mem_append, List.mem_append, mem_putRows] at hmem
        rcases hmem with (hmem | hmem) | hmem
        · exact hmem.1
        · obtain ⟨d, hd, hchange⟩ := List.mem_map.mp (List.mem_filter.mp hmem).1
          rcases serves_claimDeltas d hd with hserves | hserves
          all_goals
            obtain ⟨claim, -, hd⟩ := List.mem_flatMap.mp hd
            simp only [List.mem_cons, List.not_mem_nil, or_false] at hd
            rcases hd with rfl | rfl <;> cases hchange
        · obtain ⟨d, hd, hchange⟩ := List.mem_map.mp hmem
          obtain ⟨name, -, hd⟩ := List.mem_flatMap.mp hd
          simp only [List.mem_cons, List.not_mem_nil, or_false] at hd
          rcases hd with rfl | rfl <;> cases hchange
      all_goals exact absurd (by simp [rebuiltTables]) hself

end Batch

/-- A tournament with one event and its one draw. -/
def redrawn : RecordTree :=
  ⟨"t1", none, [⟨some "e1", [⟨some "d1", [], .null⟩], .null⟩], [], [], .null⟩

/-- The state after the draw was deleted and created again. -/
def redrawnState : FinalState plainModel where
  records t := if t = "t1" then some redrawn else none
  flattenDraw _ _ := []
  own t record h := by
    split_ifs at h with ht
    rw [← Option.some.inj h, ht]
    rfl
  flattened t drawId matchUp hm := by
    rw [flattenedMatchUps_plain] at hm
    cases hm

/-- A draw is deleted and created again under its id within one batch. -/
def deletedAndRedrawn : List ProjectionIntent := [.deleteDraw "t1" "d1", .draw "t1" "d1"]

/-- The row of the draw that the final record has is deleted. -/
theorem redrawn_draw_lost :
    ¬ ∀ (model : ReadModel) (final : FinalState model) (intents : List ProjectionIntent),
      DeletesSpare model final intents := by
  intro h
  have hkept := h plainModel redrawnState deletedAndRedrawn .draws (by simp [contentTables])
    [("draw_id", some (.text "d1"))]
    (plainModel.drawRow ⟨some "d1", [], .null⟩ "t1" (some "e1") none)
    (List.mem_cons_of_mem _ List.mem_cons_self) trivial
  obtain ⟨found, hfound, -⟩ := hkept fun _ => []
  have hrows : project plainModel redrawnState deletedAndRedrawn (fun _ => []) .draws = [] := rfl
  rw [hrows] at hfound
  cases hfound

end FactoryServer.BatchDeletes
