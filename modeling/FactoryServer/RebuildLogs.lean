import FactoryServer.OwnedBlocks

/-!
# The log of a rebuild

A rebuild deletes nothing by name and scores no matchUp: each table's log is its
blocks and, for competitors and entries, the claims. Parents are upserted before
anything hangs under them and are never deleted, so no foreign key takes a row.
-/

namespace FactoryServer.RebuildLogs

open JsonValue TournamentAccess TournamentTree KeyedTables InsertionMaps ReadModelRows
open ProjectionDeltas IntentGroups ProjectionLogs RebuiltRows RebuildIntents TableBlocks
open OwnedBlocks RowOrigins

variable (factory : CompetitionFactory) (record : RecordTree)

/-- The groups of a rebuild. -/
def rebuildGroup : Grouped := group (buildRebuildIntents factory record) (recordsOf record)

/-- The statements of a rebuild. -/
def rebuildChanges : List ReadChange := (rebuildDeltas factory record).map ProjectionDelta.change

/-- The blocks of a rebuild. -/
def rebuildBlocks : ReadTable → List Block :=
  blocks factory.toReadModel (rebuildFinal factory record) (rebuildGroup factory record)

variable {factory record}

/-- A rebuild neither deletes by name nor scores nor renames. -/
theorem rebuild_quiet : ∀ intent ∈ buildRebuildIntents factory record,
    deletedVenues intent = [] ∧ deletedDraws intent = [] ∧ deletedMatchUps intent = [] ∧
      deletedEvents intent = [] ∧ deletedParticipants intent = [] ∧ resultPairs intent = [] ∧
      namePairs intent = [] := by
  intro intent h
  rcases mem_buildRebuildIntents h with h | ⟨event, -, draw, -, h⟩ | ⟨venue, -, rfl⟩ |
    ⟨participantId, personId, rfl⟩
  · simp only [List.mem_cons, List.not_mem_nil, or_false] at h
    rcases h with rfl | rfl | rfl | rfl | rfl | rfl <;> exact ⟨rfl, rfl, rfl, rfl, rfl, rfl, rfl⟩
  · rcases mem_drawIntents h with ⟨drawId, -, rfl | rfl⟩ | ⟨id, -, rfl⟩ <;>
      exact ⟨rfl, rfl, rfl, rfl, rfl, rfl, rfl⟩
  · exact ⟨rfl, rfl, rfl, rfl, rfl, rfl, rfl⟩
  · exact ⟨rfl, rfl, rfl, rfl, rfl, rfl, rfl⟩

/-- The groups that a rebuild leaves empty. -/
theorem rebuildGroup_quiet :
    (rebuildGroup factory record).deleteVenues = [] ∧
      (rebuildGroup factory record).deleteDraws = [] ∧
      (rebuildGroup factory record).deleteMatchUps = [] ∧
      (rebuildGroup factory record).deleteEvents = [] ∧
      (rebuildGroup factory record).deleteParticipants = [] ∧
      (rebuildGroup factory record).matchUpResults = [] ∧
      (rebuildGroup factory record).participantNames = [] := by
  have hnone : ∀ {A : Type} (f : ProjectionIntent → List A),
      (∀ intent ∈ buildRebuildIntents factory record, f intent = []) →
      (buildRebuildIntents factory record).flatMap f = [] := by
    intro A f hf
    exact List.flatMap_eq_nil_iff.mpr hf
  have hquiet := @rebuild_quiet factory record
  unfold rebuildGroup
  rw [group_eq]
  refine ⟨hnone _ fun i hi => (hquiet i hi).1, hnone _ fun i hi => (hquiet i hi).2.1, ?_, ?_,
    hnone _ fun i hi => (hquiet i hi).2.2.2.2.1, ?_, ?_⟩
  · rw [hnone _ fun i hi => (hquiet i hi).2.2.1, mapOf_nil]
  · rw [hnone _ fun i hi => (hquiet i hi).2.2.2.1, mapOf_nil]
  · rw [hnone _ fun i hi => (hquiet i hi).2.2.2.2.2.1, mapOf_nil]
  · rw [hnone _ fun i hi => (hquiet i hi).2.2.2.2.2.2, mapOf_nil]

theorem rebuildGroup_owned : OwnedBy record.tournamentId (rebuildGroup factory record) :=
  group_owned (fun _ => rebuild_tournament) (recordsOf record)

theorem rebuild_deleteKeys (covered : List (Option Cell)) (table : ReadTable) :
    deleteKeys (rebuildGroup factory record) covered table = [] := by
  obtain ⟨hvenues, hdraws, hmatchUps, hevents, hparticipants, -, -⟩ :=
    @rebuildGroup_quiet factory record
  cases table <;> simp [deleteKeys, drawKeys, eventKeys, matchUpKeys, venueKeys, participantKeys,
    hvenues, hdraws, hmatchUps, hevents, hparticipants]

/-- The claims of a rebuild about one table. -/
def claimEdits (factory : CompetitionFactory) (record : RecordTree) (table : ReadTable) :
    List ReadChange :=
  onTable table (claimDeltas (rebuildGroup factory record))

theorem rebuild_edits (table : ReadTable) :
    edits (rebuildGroup factory record) table = claimEdits factory record table := by
  obtain ⟨-, -, -, -, -, -, hnames⟩ := @rebuildGroup_quiet factory record
  unfold edits claimEdits
  rw [participantNameDeltas, hnames, List.flatMap_nil, onTable_nil, List.append_nil]

/-- Everything a rebuild does to a table. -/
theorem onTable_rebuild (table : ReadTable) :
    onTable table (rebuildDeltas factory record) =
      (rebuildBlocks factory record table).flatMap (Block.log table) ++
        claimEdits factory record table := by
  have hlog := onTable_build factory (rebuildFinal factory record)
    (buildRebuildIntents factory record) table
  have hgroup : group (buildRebuildIntents factory record) (rebuildFinal factory record).records =
      rebuildGroup factory record := rfl
  rw [hgroup, rebuild_edits, rebuild_deleteKeys] at hlog
  exact hlog.trans (List.append_nil _)

theorem keepsKeys_rebuild : ∀ change ∈ rebuildChanges factory record,
    KeepsKeys primaryKey change :=
  keepsKeys_build factory.toReadModel (rebuildFinal factory record)
    (buildRebuildIntents factory record)

/-- The claims only write the person. -/
theorem claimEdits_updates {table : ReadTable} {change : ReadChange}
    (h : change ∈ claimEdits factory record table) :
    ∃ key row, change = .update table key row ∧
      (table = .matchUpCompetitors ∨ table = .entries) ∧ AsksFor record.tournamentId key ∧
        (∀ e ∈ key, e.1 ≠ "person_id" ∧ e.1 ≠ "link_source") ∧
        ∀ column, column ≠ "person_id" → column ≠ "link_source" → row column = none := by
  obtain ⟨hmem, ht⟩ := List.mem_filter.mp h
  obtain ⟨d, hd, rfl⟩ := List.mem_map.mp hmem
  obtain ⟨entry, hentry, hd⟩ := List.mem_flatMap.mp hd
  have howner := (@rebuildGroup_owned factory record).claims entry hentry
  simp only [List.mem_cons, List.not_mem_nil, or_false] at hd
  rcases hd with rfl | rfl
  · obtain rfl : ReadTable.matchUpCompetitors = table := of_decide_eq_true ht
    refine ⟨_, _, rfl, Or.inl rfl, ?_, by simp, ?_⟩
    · rw [← howner]
      exact List.mem_cons_self
    · intro column hperson hlink
      simp [rowOf, Ne.symm hperson, Ne.symm hlink]
  · obtain rfl : ReadTable.entries = table := of_decide_eq_true ht
    refine ⟨_, _, rfl, Or.inr rfl, ?_, by simp, ?_⟩
    · rw [← howner]
      exact List.mem_cons_self
    · intro column hperson _
      simp [rowOf, Ne.symm hperson]

theorem mem_rebuildChanges {change : ReadChange} :
    change ∈ rebuildChanges factory record ↔
      change ∈ onTable change.table (rebuildDeltas factory record) := by
  constructor
  · exact fun h => mem_onTable h rfl
  · exact fun h => (List.mem_filter.mp h).1

/-- A rebuild upserts the rows of its blocks. -/
theorem rebuild_upserts {table : ReadTable} {row : ReadRow} :
    Upserts table (rebuildChanges factory record) row ↔
      ∃ block ∈ rebuildBlocks factory record table, row ∈ block.rows :=
  upserts_iff factory (rebuildFinal factory record) (buildRebuildIntents factory record)

/-- A rebuild deletes no draw, no matchUp and no venue. -/
theorem rebuild_keeps_parents {table parent : ReadTable} {column : String}
    (hc : cascade table = some (parent, column)) (key : Key String Cell) :
    .delete parent key ∉ rebuildChanges factory record := by
  intro hmem
  have hlog := mem_rebuildChanges.mp hmem
  rw [Change.table, onTable_rebuild, List.mem_append] at hlog
  rcases hlog with hlog | hlog
  · obtain ⟨block, hblock, hlog⟩ := List.mem_flatMap.mp hlog
    have hnone : block.keys = [] := by
      cases table <;> simp only [cascade, reduceCtorEq, Option.some.injEq, Prod.mk.injEq] at hc
      all_goals
        obtain ⟨rfl, -⟩ := hc
        rw [List.mem_singleton.mp hblock]
        rfl
    rcases List.mem_append.mp hlog with hlog | hlog
    · rw [hnone] at hlog
      cases hlog
    · obtain ⟨row, -, he⟩ := List.mem_map.mp hlog
      cases he
  · obtain ⟨k, row, he, -⟩ := claimEdits_updates hlog
    cases he

/-- No claim writes the column that joins a child to its parent. -/
theorem rebuild_updates {table parent : ReadTable} {column : String}
    (hc : cascade table = some (parent, column)) {key : Key String Cell} {row : ReadRow}
    (h : .update table key row ∈ rebuildChanges factory record) : row column = none := by
  have hlog := mem_rebuildChanges.mp h
  rw [Change.table, onTable_rebuild, List.mem_append] at hlog
  have hcolumn : column ≠ "person_id" ∧ column ≠ "link_source" := by
    cases table <;> simp only [cascade, reduceCtorEq, Option.some.injEq, Prod.mk.injEq] at hc
    all_goals
      obtain ⟨-, rfl⟩ := hc
      decide
  rcases hlog with hlog | hlog
  · obtain ⟨block, -, hlog⟩ := List.mem_flatMap.mp hlog
    rcases List.mem_append.mp hlog with hlog | hlog
    · obtain ⟨k, -, he⟩ := List.mem_map.mp hlog
      cases he
    · obtain ⟨r, -, he⟩ := List.mem_map.mp hlog
      cases he
  · obtain ⟨k, r, he, -, -, -, hnone⟩ := claimEdits_updates hlog
    simp only [Change.update.injEq] at he
    rw [he.2.2]
    exact hnone column hcolumn.1 hcolumn.2

/-- A rebuild upserts a child together with its parent. -/
theorem rebuild_parent {table parent : ReadTable} {column : String}
    (hc : cascade table = some (parent, column)) {row : ReadRow}
    (h : Upserts table (rebuildChanges factory record) row) :
    ∃ p, Upserts parent (rebuildChanges factory record) p ∧ p column = row column :=
  parent_upserted factory (rebuildFinal factory record) (buildRebuildIntents factory record) hc h

theorem cascade_parent {table parent : ReadTable} {column : String}
    (hc : cascade table = some (parent, column)) :
    primaryKey parent = [column] ∧ cascade parent = none := by
  cases table <;> simp only [cascade, reduceCtorEq, Option.some.injEq, Prod.mk.injEq] at hc
  all_goals
    obtain ⟨rfl, rfl⟩ := hc
    exact ⟨rfl, rfl⟩

/-- Where foreign keys hold, a rebuild leaves no child without its parent. -/
theorem rebuild_parents_kept {state : ReadState} (h : ForeignKeys cascade Cell.isNull state)
    {table parent : ReadTable} {column : String} (hc : cascade table = some (parent, column)) :
    ∀ row ∈ applyChanges primaryKey (rebuildChanges factory record) state table,
      HasParent Cell.isNull column
        (applyChanges primaryKey (rebuildChanges factory record) state parent) row := by
  have hrows := h table parent column hc
  have hpk := (cascade_parent hc).1
  exact parents_kept hpk keepsKeys_rebuild (rebuild_keeps_parents hc)
    (fun _ _ => rebuild_updates hc) (fun _ => rebuild_parent hc) hrows

/-- Where foreign keys hold, the sweep at the end of a rebuild takes nothing. -/
theorem applyDeltas_rebuild {state : ReadState} (h : ForeignKeys cascade Cell.isNull state) :
    applyDeltas (rebuildChanges factory record) state =
      applyChanges primaryKey (rebuildChanges factory record) state := by
  funext table
  unfold applyDeltas
  apply sweep_of_parents
  intro parent column hc
  exact rebuild_parents_kept h hc

theorem foreignKeys_empty : ForeignKeys cascade Cell.isNull emptyState :=
  fun _ _ _ _ row hrow => by cases hrow

/-- The read rows of a record are what its rebuild writes into empty tables. -/
theorem projectionOf_eq (factory : CompetitionFactory) (record : RecordTree) :
    projectionOf factory record =
      applyChanges primaryKey (rebuildChanges factory record) emptyState := by
  have hswept := @applyDeltas_rebuild factory record emptyState foreignKeys_empty
  exact hswept

end FactoryServer.RebuildLogs
