import FactoryServer.RebuildLogs
import FactoryServer.SnapshotSpans

/-!
# What a rebuild reconciles

The rebuild is called the backstop of every loss of deltas. Its intents come
from what the record has, so a stale row goes only where the refresh of its
table reaches it, and it is brought up to date only where the rebuilt row gives
every cell it had. This module says exactly from which read states a rebuild
arrives at the rows of the record.
-/

namespace FactoryServer.ReconciledRows

open JsonValue TournamentAccess TournamentTree KeyedTables InsertionMaps ReadModelRows
open ProjectionDeltas IntentGroups ProjectionLogs RebuiltRows RebuildIntents TableBlocks
open OwnedBlocks RowOrigins RefreshedSlots RebuildLogs SnapshotSpans

/-- The row belongs to the tournament. -/
def Carries (t : String) (row : ReadRow) : Prop := row "tournament_id" = some (.text t)

/-- Venues aside, the rebuild of a record on a read state leaves the tournament
the rows of the record. -/
def Reconciles (factory : CompetitionFactory) (record : RecordTree) (state : ReadState) : Prop :=
  ∀ table, table ≠ .venues → ∀ row, Carries record.tournamentId row →
    (row ∈ applyDeltas ((rebuildDeltas factory record).map ProjectionDelta.change) state table ↔
      row ∈ projectionOf factory record table)

/-- Every row of the read state settles: a refresh of the record reaches it
before its slot is written, or the rows of the record give, and its claims fill,
every cell that it has; what the record does not write is not the tournament's. -/
def Reconcilable (factory : CompetitionFactory) (record : RecordTree) (state : ReadState) : Prop :=
  ∀ table, table ≠ .venues → ∀ row ∈ state table,
    Settled (primaryKey table) (Carries record.tournamentId) (rebuildBlocks factory record table)
      (claimEdits factory record table) row

/-- The columns that no claim writes. -/
def Unclaimed (column : String) : Prop := column ≠ "person_id" ∧ column ≠ "link_source"

section Blocks

variable {factory : CompetitionFactory} {record : RecordTree}

/-- Refreshes of different items spare each other where the rows of an item and
the keys that refresh it carry the item in one column. -/
theorem spares_of_column {A : Type} {items : List A} {id : A → String}
    (hn : (items.map id).Nodup) {block : A → Option Block} (column : String)
    (hrow : ∀ a b, block a = some b → ∀ row ∈ b.rows, row column = some (.text (id a)))
    (hkey : ∀ a b, block a = some b → ∀ key ∈ b.keys, (column, some (.text (id a))) ∈ key) :
    (items.filterMap block).Pairwise Spares := by
  induction items with
  | nil => exact List.Pairwise.nil
  | cons a rest ih =>
    obtain ⟨hfresh, hrest⟩ := List.nodup_cons.mp hn
    cases hblock : block a with
    | none =>
      rw [List.filterMap_cons_none hblock]
      exact ih hrest
    | some first =>
      rw [List.filterMap_cons_some hblock, List.pairwise_cons]
      refine ⟨?_, ih hrest⟩
      intro later hlater new hnew row hext
      obtain ⟨b, hb, hlaterblock⟩ := List.mem_filterMap.mp hlater
      have hne : id a ≠ id b := by
        intro he
        exact hfresh (List.mem_map.mpr ⟨b, hb, he.symm⟩)
      have hcell : row column = some (.text (id a)) := hext column _ (hrow a first hblock new hnew)
      unfold drops
      rw [List.any_eq_false]
      intro key hkeymem hmatch
      have hasked := matchesKey_iff.mp hmatch _ (hkey b later hlaterblock key hkeymem)
      rw [hcell] at hasked
      exact hne (by simpa using hasked)

theorem spares_map {A : Type} {items : List A} {id : A → String} (hn : (items.map id).Nodup)
    {block : A → Block} (column : String)
    (hrow : ∀ a, ∀ row ∈ (block a).rows, row column = some (.text (id a)))
    (hkey : ∀ a, ∀ key ∈ (block a).keys, (column, some (.text (id a))) ∈ key) :
    (items.map block).Pairwise Spares := by
  have hsome : items.filterMap (fun a => some (block a)) = items.map block :=
    List.filterMap_eq_map'.symm ▸ rfl
  rw [← hsome]
  refine spares_of_column hn column ?_ ?_
  · intro a b hb row hrowmem
    rw [← Option.some.inj hb] at hrowmem
    exact hrow a row hrowmem
  · intro a b hb key hkeymem
    rw [← Option.some.inj hb] at hkeymem
    exact hkey a key hkeymem

theorem nodup_rebuildGroup :
    ((rebuildGroup factory record).draws.map Prod.fst).Nodup ∧
      ((rebuildGroup factory record).seeds.map Prod.fst).Nodup ∧
      ((rebuildGroup factory record).venues.map fun e => e.2.2.venueId).Nodup ∧
      (rebuildGroup factory record).participants.Nodup ∧
      (rebuildGroup factory record).orderOfPlay.Nodup ∧
      ((rebuildGroup factory record).schedulingProfiles.map Prod.fst).Nodup ∧
      (rebuildGroup factory record).participantPublish.Nodup := by
  unfold rebuildGroup
  rw [group_eq]
  refine ⟨nodup_mapOf _, nodup_mapOf _, ?_, nodup_setOf _, nodup_setOf _, nodup_mapOf _,
    nodup_setOf _⟩
  have hids : ∀ e ∈ mapOf ((buildRebuildIntents factory record).flatMap venuePairs),
      e.2.2.venueId = e.1 := by
    intro e he
    obtain ⟨intent, -, hpair⟩ := List.mem_flatMap.mp (mem_pairs_of_mem_mapOf he)
    cases intent <;> simp only [venuePairs, List.mem_singleton, List.not_mem_nil] at hpair
    rw [hpair]
  rw [List.map_congr_left hids]
  exact nodup_mapOf _

/-- No refresh of a rebuild deletes what an earlier one wrote. -/
theorem rebuildBlocks_spare (table : ReadTable) :
    (rebuildBlocks factory record table).Pairwise Spares := by
  obtain ⟨hdraws, hseeds, hvenues, hparticipants, horders, hprofiles, hlists⟩ :=
    @nodup_rebuildGroup factory record
  unfold rebuildBlocks
  cases table <;> simp only [blocks]
  case structures =>
    refine spares_of_column hdraws "draw_id" ?_ ?_
    · intro e b hb row hrow
      obtain ⟨found, -, rfl⟩ := Option.map_eq_some_iff.mp hb
      exact (rowsOfAll_cells _ _ row hrow).2.1
    · intro e b hb key hkey
      obtain ⟨found, -, rfl⟩ := Option.map_eq_some_iff.mp hb
      rw [List.mem_singleton.mp hkey]
      simp [idKey]
  case seeds =>
    refine spares_of_column hseeds "structure_id" ?_ ?_
    · intro e b hb row hrow
      obtain ⟨found, -, rfl⟩ := Option.map_eq_some_iff.mp hb
      obtain ⟨ctx, seed, rfl, hid, -⟩ := seedRowsOf_row _ hrow
      rw [(factory.seedRow_keys seed ctx).1, hid]
    · intro e b hb key hkey
      obtain ⟨found, -, rfl⟩ := Option.map_eq_some_iff.mp hb
      rw [List.mem_singleton.mp hkey]
      simp [idKey]
  case courts =>
    refine spares_map hvenues "venue_id" ?_ ?_
    · intro e row hrow
      obtain ⟨court, -, hrow⟩ := List.mem_filterMap.mp hrow
      obtain ⟨id, -, rfl⟩ := Option.map_eq_some_iff.mp hrow
      rw [(factory.courtRow_keys court _).2.1, factory.venueRow_keys]
    · intro e key hkey
      rw [List.mem_singleton.mp hkey]
      simp [idKey]
  case entries =>
    have hid : ((rebuildGroup factory record).participants.map id).Nodup := by
      rwa [List.map_id]
    refine spares_map hid "tournament_id" ?_ ?_
    · intro e row hrow
      exact owned_entryBlock.2 (by simp) row hrow
    · intro e key hkey
      exact owned_entryBlock.1 key hkey
  case orderOfPlay =>
    have hid : ((rebuildGroup factory record).orderOfPlay.map id).Nodup := by
      rwa [List.map_id]
    refine spares_of_column hid "tournament_id" ?_ ?_
    · intro e b hb row hrow
      exact (owned_orderOfPlayBlock hb).2 (by simp) row hrow
    · intro e b hb key hkey
      exact (owned_orderOfPlayBlock hb).1 key hkey
  case schedulingProfile =>
    refine spares_map hprofiles "tournament_id" ?_ ?_
    · intro e row hrow
      exact factory.schedulingProfileRow_keys _ _ row hrow
    · intro e key hkey
      rw [List.mem_singleton.mp hkey]
      simp [idKey]
  case participantPublish =>
    have hid : ((rebuildGroup factory record).participantPublish.map id).Nodup := by
      rwa [List.map_id]
    refine spares_of_column hid "tournament_id" ?_ ?_
    · intro e b hb row hrow
      exact (owned_participantPublishBlock hb).2 (by simp) row hrow
    · intro e b hb key hkey
      exact (owned_participantPublishBlock hb).1 key hkey
  all_goals exact List.pairwise_singleton _ _

/-- The statements of a block refresh a slot. -/
theorem foldl_actSlot_log (table : ReadTable) (key : ReadRow) (block : Block)
    (rows : List ReadRow) :
    (block.log table).foldl (actSlot primaryKey table key) rows =
      refreshSlot (primaryKey table) key rows block := by
  unfold Block.log dropKeys putRows refreshSlot
  rw [List.foldl_append, foldl_actSlot_deletes, foldl_actSlot_upserts]
  congr 1
  apply List.filter_congr
  intro row _
  simp [drops, List.not_any_eq_all_not]

/-- Claims leave every other column alone and look for none that they write. -/
theorem claimEdits_only (table : ReadTable) :
    EditsOnly table Unclaimed (claimEdits factory record table) := by
  intro change hchange
  obtain ⟨key, new, rfl, -, -, hkeys, hnone⟩ := claimEdits_updates hchange
  exact ⟨key, new, rfl, fun column hc => hnone column hc.1 hc.2, hkeys⟩

/-- What a rebuild leaves in a slot, before the sweep. -/
theorem slot_rebuild (state : ReadState) (table : ReadTable) (key : ReadRow) :
    slot (primaryKey table) (applyChanges primaryKey (rebuildChanges factory record) state table)
        key =
      settle (primaryKey table) key (rebuildBlocks factory record table)
        (claimEdits factory record table) (slot (primaryKey table) (state table) key) := by
  have hlog : (rebuildChanges factory record).filter (fun change => change.table = table) =
      onTable table (rebuildDeltas factory record) := rfl
  have hrefresh : ∀ rows : List ReadRow,
      ((rebuildBlocks factory record table).flatMap (Block.log table)).foldl
        (actSlot primaryKey table key) rows =
      (rebuildBlocks factory record table).foldl (refreshSlot (primaryKey table) key) rows := by
    intro rows
    rw [List.foldl_flatMap]
    simp only [foldl_actSlot_log]
  rw [slot_applyChanges keepsKeys_rebuild, foldl_actSlot_filter, hlog, onTable_rebuild,
    List.foldl_append, hrefresh, foldl_refresh (rebuildBlocks_spare table),
    foldl_actSlot_edits (claimEdits_only table)]
  rfl

/-- Every row that a rebuild writes outside the venues carries the tournament. -/
theorem written_carries {table : ReadTable} (hv : table ≠ .venues) {key row : ReadRow}
    (hne : written (primaryKey table) key (rebuildBlocks factory record table) ≠ [])
    (hext : Extends row (mergeAll (written (primaryKey table) key
      (rebuildBlocks factory record table)))) : Carries record.tournamentId row := by
  have hrows : ∀ new ∈ written (primaryKey table) key (rebuildBlocks factory record table),
      ∃ v, new "tournament_id" = some v ∧ v = .text record.tournamentId := by
    intro new hnew
    obtain ⟨block, hblock, hnew⟩ := List.mem_flatMap.mp hnew
    have hmem : new ∈ block.rows := (List.mem_filter.mp hnew).1
    exact ⟨_, (blocks_owned rebuildGroup_owned hblock).2 hv new hmem, rfl⟩
  obtain ⟨v, hcell, rfl⟩ := mergeAll_cell hne hrows
  exact hext _ _ hcell

theorem primaryKey_unclaimed (table : ReadTable) : ∀ column ∈ primaryKey table,
    Unclaimed column := by
  cases table <;> simp [primaryKey, Unclaimed]

/-- A rebuild of a table, on a read state and on nothing. -/
theorem rebuild_runs (state : ReadState) {table : ReadTable} (hv : table ≠ .venues) :
    Runs (primaryKey table) table Unclaimed (Carries record.tournamentId)
      (rebuildBlocks factory record table) (claimEdits factory record table) (state table)
      (applyChanges primaryKey (rebuildChanges factory record) state table)
      (applyChanges primaryKey (rebuildChanges factory record) emptyState table) where
  fromOld := slot_rebuild state table
  fromNothing := slot_rebuild emptyState table
  guards := claimEdits_only table
  keys := primaryKey_unclaimed table
  inside row := by
    have hcolumn : Unclaimed "tournament_id" := by simp [Unclaimed]
    unfold Carries
    rw [edited_guarded (claimEdits_only table) row hcolumn]
  fresh key row := written_carries hv

end Blocks

/-- A rebuild reconciles a read state whose foreign keys hold exactly when every
row in it settles. -/
theorem reconciles_iff (factory : CompetitionFactory) (record : RecordTree) (state : ReadState)
    (h : ForeignKeys cascade Cell.isNull state) :
    Reconciles factory record state ↔ Reconcilable factory record state := by
  have hlog : (rebuildDeltas factory record).map ProjectionDelta.change =
      rebuildChanges factory record := rfl
  unfold Reconciles Reconcilable
  rw [hlog, applyDeltas_rebuild h, projectionOf_eq]
  refine forall_congr' fun table => forall_congr' fun hv => ?_
  exact (rebuild_runs state hv).converged_iff

/-- An entry that the record no longer has. -/
def withdrawn : ReadRow := keyRow [("tournament_id", some (.text "t1")),
  ("event_id", some (.text "e1")), ("participant_id", some (.text "p9"))]

/-- A read state with that entry. -/
def lostWithdrawal : ReadState
  | .entries => [withdrawn]
  | _ => []

theorem lostWithdrawal_keys : ForeignKeys cascade Cell.isNull lostWithdrawal := by
  intro table parent column hc row hrow
  cases table <;> cases hc <;> cases hrow

/-- The refresh of the entries takes it. -/
theorem stale_entry_goes : Reconciles plainFactory drawnRecord lostWithdrawal := by
  refine (reconciles_iff plainFactory drawnRecord lostWithdrawal lostWithdrawal_keys).mpr ?_
  intro table _ row hrow
  cases table
  case entries =>
    left
    rw [List.mem_singleton.mp hrow]
    rfl
  all_goals cases hrow

/-- A draw that the record no longer has. -/
def lostDelete : ReadState
  | .draws => [keyRow [("draw_id", some (.text "d0")), ("tournament_id", some (.text "t1"))]]
  | _ => []

theorem lostDelete_keys : ForeignKeys cascade Cell.isNull lostDelete := by
  intro table parent column hc row hrow
  cases table <;> cases hc <;> cases hrow

/-- The rebuild of the record keeps the row of the draw. -/
theorem stale_draw_stays :
    ¬ ∀ (factory : CompetitionFactory) (record : RecordTree) (state : ReadState),
      ForeignKeys cascade Cell.isNull state → Reconciles factory record state := by
  intro h
  have hdraws := h plainFactory drawnRecord lostDelete lostDelete_keys .draws (by decide)
    (keyRow [("draw_id", some (.text "d0")), ("tournament_id", some (.text "t1"))]) rfl
  have hkept := hdraws.mp List.mem_cons_self
  have hrows : projectionOf plainFactory drawnRecord .draws = [plainModel.drawRow
      ⟨some "d1", [], .null⟩ "t1" (some "e1") none] := rfl
  rw [hrows, List.mem_singleton] at hkept
  have hcell := congrFun hkept "draw_id"
  have hids : some (Cell.text "d0") = some (Cell.text "d1") := hcell
  revert hids
  decide

end FactoryServer.ReconciledRows
