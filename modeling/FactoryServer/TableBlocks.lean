import FactoryServer.RebuildIntents
import FactoryServer.RebuiltRows
import FactoryServer.RefreshedSlots
import FactoryServer.RowOrigins

/-!
# The blocks of a table's log

A build does the same thing to every table: it runs through blocks that first
delete by keys and then upsert rows, edits what is there, and deletes by keys at
the end. This module names the blocks of each table, with the rows that the
final records give them.
-/

namespace FactoryServer.TableBlocks

open JsonValue TournamentAccess TournamentTree KeyedTables InsertionMaps ReadModelRows
open ProjectionDeltas IntentGroups ProjectionLogs RebuiltRows RebuildIntents RowOrigins
open RefreshedSlots

/-- A refresh of a read table. -/
abbrev Block := Refresh String Cell

/-- The statements of a block. -/
def Block.log (table : ReadTable) (block : Block) : List ReadChange :=
  dropKeys table block.keys ++ putRows table block.rows

/-- A block that only upserts. -/
def upserts (rows : List ReadRow) : Block := ⟨[], rows⟩

/-- The tournaments whose discovery row a build upserts. -/
def discovered (g : Grouped) : List String :=
  setOf (g.touched ++ g.participants ++ g.events ++ g.orderOfPlay ++
    g.participantPublish ++ g.draws.map Prod.snd ++ g.seeds.map Prod.snd ++
    g.deleteMatchUps.map Prod.snd ++ g.deleteEvents.map Prod.snd ++
    g.schedulingProfiles.map Prod.fst ++ g.flattenDraws.map (fun e => e.2.1) ++
    g.matchUpResults.map (fun e => e.2.1) ++ g.venues.map (fun e => e.2.1) ++
    g.claims.map (fun e => e.2.tournamentId) ++ g.participantNames.map (fun e => e.2.tournamentId) ++
    g.deleteVenues.map Prod.fst ++ g.deleteDraws.map Prod.fst ++ g.deleteParticipants.map Prod.fst)

section Rows

variable (model : ReadModel) (records : Records)

mutual

/-- The rows of a structure and of its child structures. -/
def structureRows (ctx : StructureContext) : Structure → List ReadRow
  | .node structureId matchUps seedAssignments content structures =>
    match nonEmpty structureId with
    | none => []
    | some id =>
      model.structureRow (.node structureId matchUps seedAssignments content structures) ctx ::
        rowsOfAll { ctx with parentStructureId := some id } structures

/-- The rows of several structures. -/
def rowsOfAll (ctx : StructureContext) : List Structure → List ReadRow
  | [] => []
  | first :: rest => structureRows ctx first ++ rowsOfAll ctx rest

end

/-- The block of the structures of one draw. -/
def structureBlock (drawId t : String) : Option Block :=
  ((records t).bind (findDrawContext · drawId)).map fun found =>
    ⟨[idKey [("tournament_id", t), ("draw_id", drawId)]],
      rowsOfAll model ⟨t, found.1, drawId, providerIdOf records t, none⟩ found.2.structures⟩

/-- The block of the seeds of one structure. -/
def seedBlock (structureId t : String) : Option Block :=
  (records t).map fun _ => ⟨[idKey [("tournament_id", t), ("structure_id", structureId)]],
    seedRowsOf model records structureId t⟩

/-- The block of an order of play: a row when it is published, else a delete. -/
def orderOfPlayBlock (t : String) : Option Block :=
  (records t).map fun record =>
    let oop := chain (model.getTournamentPublishStatus record) "orderOfPlay"
    if truthy (chain oop "published") then upserts [model.orderOfPlayRow t oop]
    else ⟨[idKey [("tournament_id", t)]], []⟩

/-- The block of a participant list: a row when it is published, else a delete. -/
def participantPublishBlock (t : String) : Option Block :=
  (records t).map fun record =>
    let participants := chain (model.getTournamentPublishStatus record) "participants"
    if truthy (chain participants "published") then
      upserts [model.participantPublishRow t participants]
    else ⟨[idKey [("tournament_id", t)]], []⟩

/-- The block of a scheduling plan. -/
def schedulingProfileBlock (t : String) (profile : Json) : Block :=
  ⟨[idKey [("tournament_id", t)]], model.schedulingProfileRows t profile⟩

/-- The rows of the courts of a venue. -/
def courtRowsOf (t : String) (venue : Venue) : List ReadRow :=
  venue.courts.filterMap fun court => (nonEmpty court.courtId).map fun _ =>
    model.courtRow court ⟨model.venueRow venue "venue_id", t, providerIdOf records t⟩

/-- The block of the courts of a venue. -/
def courtBlock (t : String) (venue : Venue) : Block :=
  ⟨[idKey [("tournament_id", t), ("venue_id", venue.venueId)]], courtRowsOf model records t venue⟩

/-- The block of the entries of a tournament. -/
def entryBlock (t : String) : Block :=
  ⟨[idKey [("tournament_id", t)]], model.entryRows (records t)⟩

end Rows

/-- The blocks of each table. -/
def blocks (model : ReadModel) (final : FinalState model) (g : Grouped) : ReadTable → List Block
  | .tournaments => [upserts (g.touched.filterMap fun t =>
      (final.records t).map model.tournamentRow)]
  | .tournamentDiscovery => [upserts ((discovered g).filterMap fun t =>
      (final.records t).map model.tournamentDiscoveryRow)]
  | .events => [upserts (g.events.flatMap (eventRowsOf model final.records))]
  | .draws => [upserts (g.draws.filterMap fun e => drawRowOf model final.records e.1 e.2)]
  | .structures => g.draws.filterMap fun e => structureBlock model final.records e.1 e.2
  | .seeds => g.seeds.filterMap fun e => seedBlock model final.records e.1 e.2
  | .matchUps => [upserts (flattenRows model final g ++
      (slimResults model final g).map (resultRow model final.records))]
  | .matchUpCompetitors => [upserts (competitorRows model final g)]
  | .entries => g.participants.map (entryBlock model final.records)
  | .venues => [upserts (g.venues.map fun e => model.venueRow e.2.2)]
  | .courts => g.venues.map fun e => courtBlock model final.records e.2.1 e.2.2
  | .tournamentVenues => [upserts (g.venues.map fun e => linkRow model e.2.1 e.2.2)]
  | .orderOfPlay => g.orderOfPlay.filterMap (orderOfPlayBlock model final.records)
  | .schedulingProfile => g.schedulingProfiles.map fun e => schedulingProfileBlock model e.1 e.2
  | .participantPublish =>
    g.participantPublish.filterMap (participantPublishBlock model final.records)

/-- The edits of a table: claims and names. -/
def edits (g : Grouped) (table : ReadTable) : List ReadChange :=
  onTable table (claimDeltas g) ++ onTable table (participantNameDeltas g)

/-- An optional block as a list of statements. -/
theorem flatMap_filterMap_log {A : Type} (table : ReadTable) (items : List A)
    (f : A → Option Block) :
    (items.filterMap f).flatMap (Block.log table) =
      items.flatMap fun item => ((f item).map (Block.log table)).getD [] := by
  induction items with
  | nil => rfl
  | cons item rest ih =>
    cases hf : f item with
    | none => simp [hf, ih]
    | some block => simp [hf, ih]

@[simp] theorem log_upserts (table : ReadTable) (rows : List ReadRow) :
    (upserts rows).log table = putRows table rows := rfl

section Builders

variable {model : ReadModel} {records : Records}

mutual

theorem structureDeltas_eq (ctx : StructureContext) (s : Structure) :
    (structureDeltas model ctx s).map ProjectionDelta.change =
      putRows .structures (structureRows model ctx s) := by
  cases s with
  | node structureId matchUps seedAssignments content structures =>
    unfold structureDeltas structureRows
    cases nonEmpty structureId with
    | none => rfl
    | some id =>
      have hrest := collectStructureDeltas_eq { ctx with parentStructureId := some id } structures
      simp only [List.map_cons, hrest]
      rfl

theorem collectStructureDeltas_eq (ctx : StructureContext) (structures : List Structure) :
    (collectStructureDeltas model ctx structures).map ProjectionDelta.change =
      putRows .structures (rowsOfAll model ctx structures) := by
  cases structures with
  | nil => rfl
  | cons first rest =>
    have hfirst := structureDeltas_eq ctx first
    have hrest := collectStructureDeltas_eq ctx rest
    unfold collectStructureDeltas rowsOfAll
    rw [List.map_append, hfirst, hrest]
    simp [putRows]

end

mutual

theorem structureRows_cells (ctx : StructureContext) (s : Structure) :
    ∀ row ∈ structureRows model ctx s, (∃ id ∈ structureIds s,
      row "structure_id" = some (.text id)) ∧ row "draw_id" = some (.text ctx.drawId) ∧
        row "tournament_id" = some (.text ctx.tournamentId) := by
  intro row hrow
  cases s with
  | node structureId matchUps seedAssignments content structures =>
    unfold structureRows at hrow
    unfold structureIds
    cases hid : nonEmpty structureId with
    | none =>
      rw [hid] at hrow
      cases hrow
    | some id =>
      rw [hid] at hrow
      rcases List.mem_cons.mp hrow with rfl | hrow
      · have hkeys := model.structureRow_keys
          (.node structureId matchUps seedAssignments content structures) ctx
        refine ⟨⟨id, List.mem_append_left _ (by simp), ?_⟩, hkeys.2.1, hkeys.2.2⟩
        rw [hkeys.1, Structure.structureId, (nonEmpty_eq_some.mp hid).1]
        rfl
      · obtain ⟨⟨child, hchild, hcell⟩, hrest⟩ :=
          rowsOfAll_cells { ctx with parentStructureId := some id } structures row hrow
        exact ⟨⟨child, List.mem_append_right _ hchild, hcell⟩, hrest⟩

/-- The rows of a draw's structures name a structure, the draw and the tournament. -/
theorem rowsOfAll_cells (ctx : StructureContext) (structures : List Structure) :
    ∀ row ∈ rowsOfAll model ctx structures, (∃ id ∈ idsOfAll structures,
      row "structure_id" = some (.text id)) ∧ row "draw_id" = some (.text ctx.drawId) ∧
        row "tournament_id" = some (.text ctx.tournamentId) := by
  intro row hrow
  cases structures with
  | nil => cases hrow
  | cons first rest =>
    unfold rowsOfAll at hrow
    unfold idsOfAll
    rcases List.mem_append.mp hrow with hrow | hrow
    · obtain ⟨⟨id, hid, hcell⟩, hcells⟩ := structureRows_cells ctx first row hrow
      exact ⟨⟨id, List.mem_append_left _ hid, hcell⟩, hcells⟩
    · obtain ⟨⟨id, hid, hcell⟩, hcells⟩ := rowsOfAll_cells ctx rest row hrow
      exact ⟨⟨id, List.mem_append_right _ hid, hcell⟩, hcells⟩

end

theorem onTable_structures_of (drawId t : String) :
    onTable .structures (drawDeltasOf model records drawId t) =
      ((structureBlock model records drawId t).map (Block.log .structures)).getD [] := by
  unfold drawDeltasOf structureBlock
  cases (records t).bind (findDrawContext · drawId) with
  | none => rfl
  | some found =>
    have hserves := @serves_collectStructureDeltas model
      ⟨t, found.1, drawId, providerIdOf records t, none⟩ found.2.structures
    have hrows := onTable_eq_map fun d hd => (hserves d hd).1
    rw [collectStructureDeltas_eq] at hrows
    simp [upsert, del, Change.table, hrows, Block.log, dropKeys, idKey]

theorem onTable_seeds_of (structureId t : String) :
    onTable .seeds (seedDeltasOf model records structureId t) =
      ((seedBlock model records structureId t).map (Block.log .seeds)).getD [] := by
  rw [onTable_seedDeltasOf]
  unfold seedBlock
  cases records t <;> rfl

theorem schedulingProfileDeltas_eq (g : Grouped) :
    (schedulingProfileDeltas model g).map ProjectionDelta.change =
      (g.schedulingProfiles.map fun e => schedulingProfileBlock model e.1 e.2).flatMap
        (Block.log .schedulingProfile) := by
  unfold schedulingProfileDeltas
  rw [List.map_flatMap, List.flatMap_map]
  apply List.flatMap_congr
  intro entry _
  rw [List.map_cons, List.map_map]
  rfl

/-- The statements of one venue, table by table. -/
theorem onTable_venueDeltasOf (table : ReadTable) (t : String) (venue : Venue) :
    onTable table (venueDeltasOf model records t venue) =
      (if table = .venues then putRows table [model.venueRow venue] else []) ++
      (if table = .tournamentVenues then putRows table [linkRow model t venue] else []) ++
      (if table = .courts then (courtBlock model records t venue).log table else []) := by
  have hserves : ∀ d ∈ (venue.courts.filterMap fun court => (nonEmpty court.courtId).map fun _ =>
      upsert t .courts (keyOf (model.courtRow court
        ⟨model.venueRow venue "venue_id", t, providerIdOf records t⟩) ["court_id"])
        (model.courtRow court ⟨model.venueRow venue "venue_id", t, providerIdOf records t⟩)
        "venue"), Serves .courts d := by
    intro d hd
    obtain ⟨court, -, hcourt⟩ := List.mem_filterMap.mp hd
    obtain ⟨id, -, rfl⟩ := Option.map_eq_some_iff.mp hcourt
    exact ⟨rfl, trivial⟩
  have hcourts := onTable_of_table hserves table
  rw [List.map_filterMap] at hcourts
  unfold venueDeltasOf
  simp only [onTable_cons, hcourts]
  have hlink : (fun column => if column = "tournament_id" then some (Cell.text t)
      else if column = "venue_id" then model.venueRow venue "venue_id" else none) =
        linkRow model t venue := rfl
  rw [hlink]
  cases table
  case courts =>
    simp [upsert, Change.table, putRows, courtBlock, courtRowsOf, Block.log, dropKeys, idKey,
      model.venueRow_keys, List.map_filterMap, Option.map_map, Function.comp_def, keyOf,
      primaryKey]
  all_goals simp [upsert, Change.table, putRows, keyOf, primaryKey]

end Builders

section Build

variable (factory : CompetitionFactory) (final : FinalState factory.toReadModel)
  (intents : List ProjectionIntent)

theorem tournamentDeltas_eq (g : Grouped) :
    (tournamentDeltas factory.toReadModel final.records g).map ProjectionDelta.change =
      putRows .tournaments (g.touched.filterMap fun t =>
        (final.records t).map factory.tournamentRow) := by
  unfold tournamentDeltas putRows
  rw [List.map_filterMap, List.map_filterMap]
  apply List.filterMap_congr
  intro t _
  cases hr : final.records t with
  | none => rfl
  | some record =>
    have hkey := factory.tournamentRow_keys record
    rw [final.own t record hr] at hkey
    simp [upsert, keyOf, primaryKey, hkey]

theorem discoveryDeltas_eq (g : Grouped) :
    (discoveryDeltas factory.toReadModel final.records g).map ProjectionDelta.change =
      putRows .tournamentDiscovery ((discovered g).filterMap fun t =>
        (final.records t).map factory.tournamentDiscoveryRow) := by
  unfold discoveryDeltas putRows
  rw [List.map_filterMap, List.map_filterMap]
  apply List.filterMap_congr
  intro t _
  cases hr : final.records t with
  | none => rfl
  | some record =>
    have hkey := factory.tournamentDiscoveryRow_keys record
    rw [final.own t record hr] at hkey
    simp [upsert, keyOf, primaryKey, hkey]

theorem orderOfPlayDeltas_eq (g : Grouped) :
    (orderOfPlayDeltas factory.toReadModel final.records g).map ProjectionDelta.change =
      (g.orderOfPlay.filterMap (orderOfPlayBlock factory.toReadModel final.records)).flatMap
        (Block.log .orderOfPlay) := by
  unfold orderOfPlayDeltas
  rw [flatMap_filterMap_log, List.map_filterMap, List.filterMap_eq_flatMap_toList]
  apply List.flatMap_congr
  intro t _
  unfold orderOfPlayBlock
  cases final.records t with
  | none => rfl
  | some record =>
    dsimp only [Option.map_some, Option.getD_some]
    split_ifs
    · simp [upsert, putRows, keyOf, primaryKey, factory.orderOfPlayRow_keys]
    · rfl

theorem participantPublishDeltas_eq (g : Grouped) :
    (participantPublishDeltas factory.toReadModel final.records g).map ProjectionDelta.change =
      (g.participantPublish.filterMap
        (participantPublishBlock factory.toReadModel final.records)).flatMap
        (Block.log .participantPublish) := by
  unfold participantPublishDeltas
  rw [flatMap_filterMap_log, List.map_filterMap, List.filterMap_eq_flatMap_toList]
  apply List.flatMap_congr
  intro t _
  unfold participantPublishBlock
  cases final.records t with
  | none => rfl
  | some record =>
    dsimp only [Option.map_some, Option.getD_some]
    split_ifs
    · simp [upsert, putRows, keyOf, primaryKey, factory.participantPublishRow_keys]
    · rfl

theorem eventDeltas_eq (g : Grouped) :
    (eventDeltas factory.toReadModel final.records g).map ProjectionDelta.change =
      putRows .events (g.events.flatMap (eventRowsOf factory.toReadModel final.records)) := by
  have hrows := onTable_eventDeltas factory.toReadModel final g
  rwa [onTable_eq_map fun d hd => (serves_eventDeltas d hd).1] at hrows

theorem seedDeltas_eq (g : Grouped) :
    (seedDeltas factory.toReadModel final.records g).map ProjectionDelta.change =
      (g.seeds.filterMap fun e => seedBlock factory.toReadModel final.records e.1 e.2).flatMap
        (Block.log .seeds) := by
  have hrows : onTable .seeds (seedDeltas factory.toReadModel final.records g) =
      (seedDeltas factory.toReadModel final.records g).map ProjectionDelta.change :=
    onTable_eq_map fun d hd => (serves_seedDeltas d hd).1
  rw [← hrows, flatMap_filterMap_log]
  unfold seedDeltas
  simp only [onTable_flatMap, onTable_seeds_of]

theorem entryDeltas_eq (g : Grouped) :
    (entryDeltas factory.toReadModel final.records g).map ProjectionDelta.change =
      (g.participants.map (entryBlock factory.toReadModel final.records)).flatMap
        (Block.log .entries) := by
  have hrows := onTable_entryDeltas factory.toReadModel final g
  rw [onTable_eq_map fun d hd => (serves_entryDeltas d hd).1] at hrows
  rw [hrows, List.flatMap_map]
  rfl

/-- The re-projected draws write draws and structures. -/
theorem onTable_drawDeltas (g : Grouped) (table : ReadTable) :
    onTable table (drawDeltas factory.toReadModel final.records g) =
      if table = .draws ∨ table = .structures then
        (blocks factory.toReadModel final g table).flatMap (Block.log table) else [] := by
  by_cases hd : table = .draws
  · subst hd
    unfold drawDeltas
    rw [onTable_flatMap]
    simp only [onTable_drawDeltasOf_draws, blocks, List.flatMap_singleton, log_upserts, putRows,
      List.filterMap_eq_flatMap_toList, List.map_flatMap, true_or, if_true]
  · by_cases hs : table = .structures
    · subst hs
      unfold drawDeltas
      rw [onTable_flatMap]
      simp only [onTable_structures_of, blocks, flatMap_filterMap_log, or_true, if_true]
    · rw [onTable_drawDeltas_of_ne hd hs, if_neg (by simp [hd, hs])]

/-- The venues write venues, links and courts. -/
theorem onTable_venueDeltas (g : Grouped) (table : ReadTable) :
    onTable table (venueDeltas factory.toReadModel final.records g) =
      if table = .venues ∨ table = .tournamentVenues ∨ table = .courts then
        (blocks factory.toReadModel final g table).flatMap (Block.log table) else [] := by
  have hone : ∀ (entries : List (String × (String × Venue))) (row : String × (String × Venue) →
      ReadRow), putRows table (entries.map row) = entries.flatMap fun e => putRows table [row e] := by
    intro entries row
    simp only [putRows, List.map_map]
    exact List.map_eq_flatMap
  unfold venueDeltas
  simp only [onTable_flatMap, onTable_venueDeltasOf]
  cases table
  case venues | tournamentVenues =>
    simp only [blocks, List.flatMap_singleton, log_upserts, hone, if_true, reduceCtorEq, if_false,
      List.nil_append, List.append_nil, true_or, or_true]
  case courts =>
    simp only [blocks, List.flatMap_map, if_true, reduceCtorEq, if_false, List.nil_append, or_true]
  all_goals simp [flatMap_nothing]

/-- Everything a build does to a table: its blocks, its edits and its last deletes. -/
theorem onTable_build (table : ReadTable) :
    onTable table (buildProjectionDeltas factory.toReadModel final intents) =
      (blocks factory.toReadModel final (group intents final.records) table).flatMap
          (Block.log table) ++
        edits (group intents final.records) table ++
        dropKeys table (deleteKeys (group intents final.records)
          (coveredIds factory.toReadModel final (group intents final.records)) table) := by
  have hone : ∀ rows : List ReadRow, [upserts rows].flatMap (Block.log table) =
      putRows table rows := fun rows => List.flatMap_singleton _ _
  have hcovered : coveredIds factory.toReadModel final (group intents final.records) =
      (resultDeltas factory.toReadModel final.records
        (flattenedIds factory.toReadModel final.records final.flattenDraw
          (group intents final.records)) (group intents final.records).matchUpResults).2 := rfl
  unfold buildProjectionDeltas edits
  rw [hcovered]
  simp only [onTable_append, onTable_deleteDeltas, onTable_flatten, onTable_results, single_tables,
    onTable_schedulingProfileDeltas, onTable_drawDeltas, onTable_venueDeltas,
    tournamentDeltas_eq, discoveryDeltas_eq, orderOfPlayDeltas_eq, participantPublishDeltas_eq,
    schedulingProfileDeltas_eq, eventDeltas_eq, seedDeltas_eq, entryDeltas_eq]
  cases table <;>
    simp [blocks, hone, dropKeys, putRows, primaryKey]

/-- The statements of a build. -/
def changesOf : List ReadChange :=
  (buildProjectionDeltas factory.toReadModel final intents).map ProjectionDelta.change

/-- A statement is among those of its table. -/
theorem mem_onTable {deltas : List ProjectionDelta} {change : ReadChange} {table : ReadTable}
    (h : change ∈ deltas.map ProjectionDelta.change) (ht : change.table = table) :
    change ∈ onTable table deltas :=
  List.mem_filter.mpr ⟨h, by simpa using ht⟩

/-- The edits only update. -/
theorem edits_updates {g : Grouped} {table : ReadTable} {change : ReadChange}
    (h : change ∈ edits g table) : ∃ key row, change = .update table key row ∧
      (table = .matchUpCompetitors ∨ table = .entries) ∧
        ∀ column ∈ ["tournament_id", "match_up_id", "side_number", "competitor_index", "event_id",
          "participant_id", "individual_participant_id"], row column = none := by
  rcases List.mem_append.mp h with h | h
  · obtain ⟨hmem, ht⟩ := List.mem_filter.mp h
    obtain ⟨d, hd, rfl⟩ := List.mem_map.mp hmem
    obtain ⟨entry, -, hd⟩ := List.mem_flatMap.mp hd
    simp only [List.mem_cons, List.not_mem_nil, or_false] at hd
    rcases hd with rfl | rfl
    · obtain rfl : ReadTable.matchUpCompetitors = table := of_decide_eq_true ht
      exact ⟨_, _, rfl, by simp, by simp [rowOf]⟩
    · obtain rfl : ReadTable.entries = table := of_decide_eq_true ht
      exact ⟨_, _, rfl, by simp, by simp [rowOf]⟩
  · obtain ⟨hmem, ht⟩ := List.mem_filter.mp h
    obtain ⟨d, hd, rfl⟩ := List.mem_map.mp hmem
    obtain ⟨entry, -, hd⟩ := List.mem_flatMap.mp hd
    simp only [List.mem_cons, List.not_mem_nil, or_false] at hd
    rcases hd with rfl | rfl <;>
      (obtain rfl : ReadTable.matchUpCompetitors = table := of_decide_eq_true ht
       exact ⟨_, _, rfl, by simp, by simp [rowOf]⟩)

/-- A build upserts the rows of the blocks. -/
theorem upserts_iff {table : ReadTable} {row : ReadRow} :
    Upserts table (changesOf factory final intents) row ↔
      ∃ block ∈ blocks factory.toReadModel final (group intents final.records) table,
        row ∈ block.rows := by
  constructor
  · rintro ⟨key, hkey⟩
    have hmem := mem_onTable hkey rfl
    rw [onTable_build, List.mem_append, List.mem_append] at hmem
    rcases hmem with (hmem | hmem) | hmem
    · obtain ⟨block, hblock, hmem⟩ := List.mem_flatMap.mp hmem
      rcases List.mem_append.mp hmem with hmem | hmem
      · exact absurd hmem not_mem_dropKeys
      · exact ⟨block, hblock, (mem_putRows.mp hmem).1⟩
    · obtain ⟨k, r, he, -⟩ := edits_updates hmem
      cases he
    · exact absurd hmem not_mem_dropKeys
  · rintro ⟨block, hblock, hrow⟩
    have hput : Change.upsert table (keyOf row (primaryKey table)) row ∈
        onTable table (buildProjectionDeltas factory.toReadModel final intents) := by
      rw [onTable_build]
      apply List.mem_append_left
      apply List.mem_append_left
      refine List.mem_flatMap.mpr ⟨block, hblock, List.mem_append_right _ ?_⟩
      exact mem_putRows.mpr ⟨hrow, rfl⟩
    exact ⟨_, (List.mem_filter.mp hput).1⟩

/-- A build upserts a child together with its parent. -/
theorem parent_upserted {table parent : ReadTable} {column : String}
    (hc : cascade table = some (parent, column)) {row : ReadRow}
    (h : Upserts table (changesOf factory final intents) row) :
    ∃ p, Upserts parent (changesOf factory final intents) p ∧ p column = row column := by
  have hparent : ∀ {p : ReadRow} {rows : List ReadRow}, p ∈ rows →
      upserts rows ∈ blocks factory.toReadModel final (group intents final.records) parent →
      p column = row column →
      ∃ p, Upserts parent (changesOf factory final intents) p ∧ p column = row column := by
    intro p rows hp hrows hsame
    exact ⟨p, (upserts_iff factory final intents).mpr ⟨_, hrows, hp⟩, hsame⟩
  obtain ⟨block, hblock, hrow⟩ := (upserts_iff factory final intents).mp h
  cases table <;> simp only [cascade, reduceCtorEq, Option.some.injEq, Prod.mk.injEq] at hc
  case structures =>
    obtain ⟨rfl, rfl⟩ := hc
    obtain ⟨e, he, hblock⟩ := List.mem_filterMap.mp hblock
    obtain ⟨found, hfound, rfl⟩ := Option.map_eq_some_iff.mp hblock
    have hdraw : drawRowOf factory.toReadModel final.records e.1 e.2 =
        some (factory.drawRow found.2 e.2 found.1 (providerIdOf final.records e.2)) := by
      rw [drawRowOf, hfound]
      rfl
    refine hparent (List.mem_filterMap.mpr ⟨e, he, hdraw⟩) (List.mem_singleton_self _) ?_
    rw [(drawRowOf_drawId _ hdraw).1, (rowsOfAll_cells _ _ row hrow).2.1]
  case matchUpCompetitors =>
    obtain ⟨rfl, rfl⟩ := hc
    rw [List.mem_singleton.mp hblock] at hrow
    obtain ⟨e, he, hrow⟩ := List.mem_flatMap.mp hrow
    obtain ⟨matchUp, hmatchUp, hrow⟩ := List.mem_flatMap.mp hrow
    obtain ⟨p, hp, hsame⟩ := factory.competitorRow_parent _ _ row hrow
    refine hparent (List.mem_append_left _ ?_) (List.mem_singleton_self _) hsame
    exact List.mem_flatMap.mpr ⟨e, he, List.mem_flatMap.mpr ⟨matchUp, hmatchUp, hp⟩⟩
  case courts =>
    obtain ⟨rfl, rfl⟩ := hc
    obtain ⟨e, he, rfl⟩ := List.mem_map.mp hblock
    obtain ⟨court, -, hrow⟩ := List.mem_filterMap.mp hrow
    obtain ⟨id, -, rfl⟩ := Option.map_eq_some_iff.mp hrow
    refine hparent (List.mem_map.mpr ⟨e, he, rfl⟩) (List.mem_singleton_self _) ?_
    rw [(factory.courtRow_keys court _).2.1]

end Build

end FactoryServer.TableBlocks
