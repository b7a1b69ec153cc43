import FactoryServer.ProjectionLogs

/-!
# What a batch rebuilds and deletes in each table

Six tables are reached by the deletes at the end of a build. For each of them
this module names the rows that the batch upserts and the keys that close it,
both read off the intents and the final records, and writes the statements of
the table as refreshes, upserts and deletes of these.
-/

namespace FactoryServer.RebuiltRows

open JsonValue TournamentAccess TournamentTree KeyedTables InsertionMaps ReadModelRows
open ProjectionDeltas IntentGroups ProjectionLogs

/-- Upserts of rows under their primary keys. -/
def putRows (table : ReadTable) (rows : List ReadRow) : List ReadChange :=
  rows.map fun row => .upsert table (keyOf row (primaryKey table)) row

/-- Deletes by keys. -/
def dropKeys (table : ReadTable) (keys : List (Key String Cell)) : List ReadChange :=
  keys.map fun key => .delete table key

theorem mem_putRows {table : ReadTable} {rows : List ReadRow} {key : Key String Cell}
    {row : ReadRow} : .upsert table key row ∈ putRows table rows ↔
      row ∈ rows ∧ key = keyOf row (primaryKey table) := by
  unfold putRows
  rw [List.mem_map]
  constructor
  · rintro ⟨r, hr, he⟩
    simp only [Change.upsert.injEq, true_and] at he
    obtain ⟨hkey, rfl⟩ := he
    exact ⟨hr, hkey.symm⟩
  · rintro ⟨hrow, rfl⟩
    exact ⟨row, hrow, rfl⟩

theorem not_mem_dropKeys {table : ReadTable} {keys : List (Key String Cell)}
    {key : Key String Cell} {row : ReadRow} : .upsert table key row ∉ dropKeys table keys := by
  simp [dropKeys]

section Rows

variable (model : ReadModel) (records : Records)

/-- The row of a draw of the final record. -/
def drawRowOf (drawId t : String) : Option ReadRow :=
  ((records t).bind (findDrawContext · drawId)).map fun found =>
    model.drawRow found.2 t found.1 (providerIdOf records t)

/-- The rows of the events of a final record. -/
def eventRowsOf (t : String) : List ReadRow :=
  ((records t).map RecordTree.events).getD [] |>.filterMap fun event =>
    (nonEmpty event.eventId).map fun _ => model.eventRow event t (providerIdOf records t)
      (model.isEventPublished (model.getEventPublishStatus event))

/-- The rows of the seeds of a structure of the final record. -/
def seedRowsOf (structureId t : String) : List ReadRow :=
  match (records t).bind (findStructureContext · structureId) with
  | none => []
  | some (eventId, drawId, found) =>
    found.seedAssignments.filterMap fun assignment => (nonEmpty assignment.participantId).map
      fun _ => model.seedRow assignment ⟨t, eventId, drawId, structureId, providerIdOf records t⟩

/-- The link of a tournament to a venue. -/
def linkRow (t : String) (venue : Venue) : ReadRow := fun column =>
  if column = "tournament_id" then some (.text t)
  else if column = "venue_id" then model.venueRow venue "venue_id" else none

end Rows

/-- The rows that a batch upserts into the tables that its last deletes reach. -/
def rebuiltRows (model : ReadModel) (final : FinalState model) (intents : List ProjectionIntent) :
    ReadTable → List ReadRow
  | .draws => (mapOf (intents.flatMap drawPairs)).filterMap fun entry =>
    drawRowOf model final.records entry.1 entry.2
  | .seeds => (mapOf (intents.flatMap seedPairs)).flatMap fun entry =>
    seedRowsOf model final.records entry.1 entry.2
  | .events => (setOf (intents.flatMap eventRefreshes)).flatMap (eventRowsOf model final.records)
  | .matchUps => flattenRows model final (group intents final.records) ++
    (slimResults model final (group intents final.records)).map (resultRow model final.records)
  | .entries => (setOf (intents.flatMap entryRefreshes)).flatMap fun t =>
    model.entryRows (final.records t)
  | .tournamentVenues => (mapOf (intents.flatMap venuePairs)).map fun entry =>
    linkRow model entry.2.1 entry.2.2
  | _ => []

/-- Keys of the draws that the batch deletes. -/
def deletedDrawKeys (intents : List ProjectionIntent) : List (Key String Cell) :=
  (intents.flatMap deletedDraws).map fun d => idKey [("tournament_id", d.1), ("draw_id", d.2)]

/-- Keys of the events that the batch deletes. -/
def deletedEventKeys (intents : List ProjectionIntent) : List (Key String Cell) :=
  (mapOf (intents.flatMap deletedEvents)).map fun e =>
    idKey [("tournament_id", e.2), ("event_id", e.1)]

/-- Keys of the venue links that the batch deletes. -/
def deletedVenueKeys (intents : List ProjectionIntent) : List (Key String Cell) :=
  (intents.flatMap deletedVenues).map fun v => idKey [("tournament_id", v.1), ("venue_id", v.2)]

/-- Keys of the entries of the participants that the batch deletes. -/
def deletedParticipantKeys (intents : List ProjectionIntent) : List (Key String Cell) :=
  (intents.flatMap deletedParticipants).flatMap fun p => p.2.map fun participantId =>
    idKey [("tournament_id", p.1), ("participant_id", participantId)]

/-- The keys by which draws, events, venues and participants that the batch
deletes reach a table. -/
def closingKeys (intents : List ProjectionIntent) : ReadTable → List (Key String Cell)
  | .draws | .seeds | .matchUps => deletedDrawKeys intents ++ deletedEventKeys intents
  | .events => deletedEventKeys intents
  | .entries => deletedEventKeys intents ++ deletedParticipantKeys intents
  | .tournamentVenues => deletedVenueKeys intents
  | _ => []

theorem deleteKeys_eq {intents : List ProjectionIntent} {records : Records}
    {covered : List (Option Cell)} {table : ReadTable} (h : table ≠ .matchUps) :
    deleteKeys (group intents records) covered table = closingKeys intents table := by
  rw [group_eq]
  cases table <;> first | rfl | exact absurd rfl h

/-- A key that names a tournament and one thing of it. -/
def NamesOne (key : Key String Cell) : Prop :=
  ∃ t column id, column ∈ ["draw_id", "event_id", "participant_id", "venue_id"] ∧
    key = idKey [("tournament_id", t), (column, id)]

theorem closingKeys_form {intents : List ProjectionIntent} {table : ReadTable}
    {key : Key String Cell} (h : key ∈ closingKeys intents table) : NamesOne key := by
  have hdraw : key ∈ deletedDrawKeys intents → NamesOne key := by
    intro hkey
    obtain ⟨d, -, rfl⟩ := List.mem_map.mp hkey
    exact ⟨d.1, "draw_id", d.2, by simp, rfl⟩
  have hevent : key ∈ deletedEventKeys intents → NamesOne key := by
    intro hkey
    obtain ⟨e, -, rfl⟩ := List.mem_map.mp hkey
    exact ⟨e.2, "event_id", e.1, by simp, rfl⟩
  have hvenue : key ∈ deletedVenueKeys intents → NamesOne key := by
    intro hkey
    obtain ⟨v, -, rfl⟩ := List.mem_map.mp hkey
    exact ⟨v.1, "venue_id", v.2, by simp, rfl⟩
  have hparticipant : key ∈ deletedParticipantKeys intents → NamesOne key := by
    intro hkey
    obtain ⟨p, -, hkey⟩ := List.mem_flatMap.mp hkey
    obtain ⟨participantId, -, rfl⟩ := List.mem_map.mp hkey
    exact ⟨p.1, "participant_id", participantId, by simp, rfl⟩
  cases table <;> simp only [closingKeys, List.mem_append, List.not_mem_nil] at h
  case events => exact hevent h
  case draws | seeds | matchUps => exact h.elim hdraw hevent
  case entries => exact h.elim hevent hparticipant
  case tournamentVenues => exact hvenue h

/-- A closing key names its columns once and asks for a value in each. -/
theorem closingKeys_ids {intents : List ProjectionIntent} {table : ReadTable}
    {key : Key String Cell} (h : key ∈ closingKeys intents table) :
    (key.map Prod.fst).Nodup ∧ ∀ entry ∈ key, entry.2 ≠ none := by
  obtain ⟨t, column, id, hcolumn, rfl⟩ := closingKeys_form h
  have hne : column ≠ "tournament_id" := by
    rintro rfl
    simp at hcolumn
  simp [idKey, Ne.symm hne]

/-- The columns that closing keys compare. -/
def closingColumns : List String :=
  ["tournament_id", "draw_id", "event_id", "participant_id", "venue_id"]

theorem closingKeys_columns {intents : List ProjectionIntent} {table : ReadTable}
    {key : Key String Cell} (h : key ∈ closingKeys intents table) :
    ∀ entry ∈ key, entry.1 ∈ closingColumns := by
  obtain ⟨t, column, id, hcolumn, rfl⟩ := closingKeys_form h
  intro entry he
  simp only [idKey, List.map_cons, List.map_nil, List.mem_cons, List.not_mem_nil, or_false] at he
  rcases he with rfl | rfl
  · simp [closingColumns]
  · exact List.mem_cons_of_mem _ hcolumn

/-- The closing keys of the entries compare columns of their primary key. -/
theorem entryKeys_columns {intents : List ProjectionIntent} {key : Key String Cell}
    (h : key ∈ closingKeys intents .entries) :
    ∀ entry ∈ key, entry.1 ∈ primaryKey .entries := by
  rcases List.mem_append.mp h with h | h
  · obtain ⟨e, -, rfl⟩ := List.mem_map.mp h
    simp [idKey, primaryKey]
  · obtain ⟨p, -, h⟩ := List.mem_flatMap.mp h
    obtain ⟨participantId, -, rfl⟩ := List.mem_map.mp h
    simp [idKey, primaryKey]

section Logs

variable (model : ReadModel) (final : FinalState model) (intents : List ProjectionIntent)

/-- A draw that is found has the id it was sought by. -/
theorem findDrawContext_drawId {record : RecordTree} {drawId : String}
    {found : Option String × DrawDefinition} (h : findDrawContext record drawId = some found) :
    found.2.drawId = some drawId := by
  obtain ⟨event, -, hevent⟩ := List.exists_of_findSome?_eq_some h
  obtain ⟨draw, hdraw, rfl⟩ := Option.map_eq_some_iff.mp hevent
  simpa using List.find?_some hdraw

/-- The row of a draw is keyed by the draw. -/
theorem drawRowOf_drawId {records : Records} {drawId t : String} {row : ReadRow}
    (h : drawRowOf model records drawId t = some row) :
    row "draw_id" = some (.text drawId) ∧ row "tournament_id" = some (.text t) := by
  obtain ⟨found, hfound, rfl⟩ := Option.map_eq_some_iff.mp h
  obtain ⟨record, -, hcontext⟩ := Option.bind_eq_some_iff.mp hfound
  have hkeys := model.drawRow_keys found.2 t found.1 (providerIdOf records t)
  rw [hkeys.1, findDrawContext_drawId hcontext]
  exact ⟨rfl, hkeys.2.2⟩

/-- The statements of one re-projected draw about the draws. -/
theorem onTable_drawDeltasOf_draws (records : Records) (drawId t : String) :
    onTable .draws (drawDeltasOf model records drawId t) =
      putRows .draws (drawRowOf model records drawId t).toList := by
  unfold drawDeltasOf
  cases hfound : (records t).bind (findDrawContext · drawId) with
  | none => simp [drawRowOf, hfound, putRows]
  | some found =>
    have hrow : drawRowOf model records drawId t =
        some (model.drawRow found.2 t found.1 (providerIdOf records t)) := by
      simp [drawRowOf, hfound]
    have hid := (drawRowOf_drawId model hrow).1
    have hserves := @serves_collectStructureDeltas model
      ⟨t, found.1, drawId, providerIdOf records t, none⟩ found.2.structures
    have hstructures : onTable .draws (collectStructureDeltas model
        ⟨t, found.1, drawId, providerIdOf records t, none⟩ found.2.structures) = [] :=
      onTable_eq_nil fun d hd => by
        rw [(hserves d hd).1]
        decide
    rw [hrow]
    simp [putRows, keyOf, primaryKey, hid, hstructures, upsert, del, Change.table]

mutual

/-- The structures below a draw are upserted with their draw. -/
theorem structureDeltas_rows (ctx : StructureContext) (s : Structure) :
    ∃ rows : List ReadRow, (∀ row ∈ rows, row "draw_id" = some (.text ctx.drawId)) ∧
      (structureDeltas model ctx s).map ProjectionDelta.change = putRows .structures rows := by
  cases s with
  | node structureId matchUps seedAssignments content structures =>
    unfold structureDeltas
    cases nonEmpty structureId with
    | none => exact ⟨[], by simp, rfl⟩
    | some id =>
      obtain ⟨rows, hrows, hlog⟩ :=
        collectStructureDeltas_rows { ctx with parentStructureId := some id } structures
      refine ⟨model.structureRow (.node structureId matchUps seedAssignments content structures)
        ctx :: rows, ?_, ?_⟩
      · intro row hrow
        rcases List.mem_cons.mp hrow with rfl | hrow
        · exact (model.structureRow_keys _ ctx).2.1
        · exact hrows row hrow
      · simp only [List.map_cons, hlog]
        rfl

/-- The same for several structures. -/
theorem collectStructureDeltas_rows (ctx : StructureContext) (structures : List Structure) :
    ∃ rows : List ReadRow, (∀ row ∈ rows, row "draw_id" = some (.text ctx.drawId)) ∧
      (collectStructureDeltas model ctx structures).map ProjectionDelta.change =
        putRows .structures rows := by
  cases structures with
  | nil => exact ⟨[], by simp, rfl⟩
  | cons first rest =>
    obtain ⟨firsts, hfirsts, hfirst⟩ := structureDeltas_rows ctx first
    obtain ⟨rows, hrows, hrest⟩ := collectStructureDeltas_rows ctx rest
    refine ⟨firsts ++ rows, ?_, ?_⟩
    · intro row hrow
      rcases List.mem_append.mp hrow with hrow | hrow
      · exact hfirsts row hrow
      · exact hrows row hrow
    · unfold collectStructureDeltas
      rw [List.map_append, hfirst, hrest]
      simp [putRows]

end

/-- The statements of one re-projected draw about the structures: a refresh and
upserts that carry the draw. -/
theorem onTable_drawDeltasOf_structures (records : Records) (drawId t : String) :
    ∃ rows : List ReadRow, (∀ row ∈ rows, row "draw_id" = some (.text drawId)) ∧
      onTable .structures (drawDeltasOf model records drawId t) =
        if (drawRowOf model records drawId t).isSome then
          dropKeys .structures [idKey [("tournament_id", t), ("draw_id", drawId)]] ++
            putRows .structures rows
        else [] := by
  unfold drawDeltasOf
  cases hfound : (records t).bind (findDrawContext · drawId) with
  | none =>
    refine ⟨[], by simp, ?_⟩
    simp [drawRowOf, hfound]
  | some found =>
    obtain ⟨rows, hrows, hlog⟩ := collectStructureDeltas_rows model
      ⟨t, found.1, drawId, providerIdOf records t, none⟩ found.2.structures
    refine ⟨rows, hrows, ?_⟩
    have hserves := @serves_collectStructureDeltas model
      ⟨t, found.1, drawId, providerIdOf records t, none⟩ found.2.structures
    have hstructures := onTable_eq_map fun d hd => (hserves d hd).1
    simp [drawRowOf, hfound, dropKeys, idKey, upsert, del, Change.table, hstructures, hlog]

/-- The statements of one refreshed structure about its seeds. -/
theorem onTable_seedDeltasOf (records : Records) (structureId t : String) :
    onTable .seeds (seedDeltasOf model records structureId t) =
      if (records t).isSome then
        dropKeys .seeds [idKey [("tournament_id", t), ("structure_id", structureId)]] ++
          putRows .seeds (seedRowsOf model records structureId t)
      else [] := by
  rw [onTable_eq_map fun d hd => (serves_seedDeltasOf structureId t d hd).1]
  unfold seedDeltasOf seedRowsOf
  cases records t with
  | none => rfl
  | some record =>
    dsimp only [Option.bind_some]
    cases findStructureContext record structureId with
    | none => rfl
    | some found =>
      simp only [Option.isSome_some, if_true, List.map_cons, putRows, List.map_filterMap,
        Option.map_map]
      rfl

/-- The rows of a structure's seeds are seed rows of that structure. -/
theorem seedRowsOf_row {records : Records} {structureId t : String} {row : ReadRow}
    (h : row ∈ seedRowsOf model records structureId t) :
    ∃ ctx seed, row = model.seedRow seed ctx ∧ ctx.structureId = structureId ∧
      ctx.tournamentId = t := by
  unfold seedRowsOf at h
  split at h
  · cases h
  · rename_i eventId drawId found _
    obtain ⟨seed, -, hseed⟩ := List.mem_filterMap.mp h
    obtain ⟨id, -, rfl⟩ := Option.map_eq_some_iff.mp hseed
    exact ⟨⟨t, eventId, drawId, structureId, providerIdOf records t⟩, seed, rfl, rfl, rfl⟩

/-- The statements of one event refresh. -/
theorem onTable_eventDeltas (g : Grouped) :
    onTable .events (eventDeltas model final.records g) =
      putRows .events (g.events.flatMap (eventRowsOf model final.records)) := by
  rw [onTable_eq_map fun d hd => (serves_eventDeltas d hd).1]
  unfold eventDeltas putRows
  rw [List.map_flatMap, List.map_flatMap]
  apply List.flatMap_congr
  intro t _
  unfold eventRowsOf
  cases final.records t with
  | none => rfl
  | some record =>
    simp only [Option.map_some, Option.getD_some, List.map_filterMap, Option.map_map]
    rfl

/-- The statements of one entry refresh. -/
theorem onTable_entryDeltas (g : Grouped) :
    onTable .entries (entryDeltas model final.records g) =
      g.participants.flatMap fun t =>
        dropKeys .entries [idKey [("tournament_id", t)]] ++
          putRows .entries (model.entryRows (final.records t)) := by
  rw [onTable_eq_map fun d hd => (serves_entryDeltas d hd).1]
  unfold entryDeltas
  rw [List.map_flatMap]
  apply List.flatMap_congr
  intro t _
  simp only [List.map_cons, List.map_map, dropKeys, putRows]
  rfl

/-- The statements of the venues about their links. -/
theorem onTable_venueDeltas_links (g : Grouped) :
    onTable .tournamentVenues (venueDeltas model final.records g) =
      putRows .tournamentVenues (g.venues.map fun entry => linkRow model entry.2.1 entry.2.2) := by
  unfold venueDeltas
  rw [onTable_flatMap]
  have hone : ∀ entry : String × (String × Venue),
      onTable .tournamentVenues (venueDeltasOf model final.records entry.2.1 entry.2.2) =
        [.upsert .tournamentVenues (keyOf (linkRow model entry.2.1 entry.2.2)
          (primaryKey .tournamentVenues)) (linkRow model entry.2.1 entry.2.2)] := by
    intro entry
    have hcourts : ∀ d ∈ entry.2.2.courts.filterMap (fun court =>
        (nonEmpty court.courtId).map fun _ =>
          upsert entry.2.1 .courts (keyOf (model.courtRow court
            ⟨model.venueRow entry.2.2 "venue_id", entry.2.1,
              providerIdOf final.records entry.2.1⟩) ["court_id"]) (model.courtRow court
            ⟨model.venueRow entry.2.2 "venue_id", entry.2.1,
              providerIdOf final.records entry.2.1⟩) "venue"),
        d.change.table ≠ .tournamentVenues := by
      intro d hd
      obtain ⟨court, -, hcourt⟩ := List.mem_filterMap.mp hd
      obtain ⟨id, -, rfl⟩ := Option.map_eq_some_iff.mp hcourt
      simp [upsert, Change.table]
    unfold venueDeltasOf
    simp only [onTable_cons, onTable_eq_nil hcourts]
    rfl
  simp only [hone, putRows, List.map_map]
  exact (List.map_eq_flatMap).symm

theorem onTable_drawDeltas_draws :
    onTable .draws (drawDeltas model final.records (group intents final.records)) =
      putRows .draws (rebuiltRows model final intents .draws) := by
  unfold drawDeltas
  rw [onTable_flatMap, group_eq]
  simp only [onTable_drawDeltasOf_draws, putRows, rebuiltRows, List.filterMap_eq_flatMap_toList,
    List.map_flatMap]

/-- The draws: upserts, then deletes. -/
theorem onTable_draws :
    onTable .draws (buildProjectionDeltas model final intents) =
      putRows .draws (rebuiltRows model final intents .draws) ++
        dropKeys .draws (closingKeys intents .draws) := by
  unfold buildProjectionDeltas
  simp only [onTable_append, onTable_deleteDeltas, onTable_flatten, onTable_results, single_tables,
    onTable_schedulingProfileDeltas, onTable_participantNameDeltas, onTable_drawDeltas_draws,
    onTable_venueDeltas_of_ne, onTable_claimDeltas_of_ne, reduceCtorEq, if_false,
    List.nil_append, List.append_nil, ne_eq, not_false_eq_true, deleteKeys_eq]
  rfl

/-- The events: upserts, then deletes. -/
theorem onTable_events :
    onTable .events (buildProjectionDeltas model final intents) =
      putRows .events (rebuiltRows model final intents .events) ++
        dropKeys .events (closingKeys intents .events) := by
  have hevents : (group intents final.records).events = setOf (intents.flatMap eventRefreshes) := by
    rw [group_eq]
  have hrows := onTable_eventDeltas model final (group intents final.records)
  rw [hevents] at hrows
  unfold buildProjectionDeltas
  simp only [onTable_append, onTable_deleteDeltas, onTable_flatten, onTable_results, hrows,
    onTable_of_table serves_tournamentDeltas, onTable_of_table serves_discoveryDeltas,
    onTable_of_table serves_seedDeltas, onTable_of_table serves_orderOfPlayDeltas,
    onTable_of_table serves_participantPublishDeltas, onTable_of_table serves_entryDeltas,
    onTable_schedulingProfileDeltas, onTable_participantNameDeltas, onTable_drawDeltas_of_ne,
    onTable_venueDeltas_of_ne, onTable_claimDeltas_of_ne, reduceCtorEq, if_false,
    List.nil_append, List.append_nil, ne_eq, not_false_eq_true, deleteKeys_eq]
  rfl

/-- The venue links: upserts, then deletes. -/
theorem onTable_tournamentVenues :
    onTable .tournamentVenues (buildProjectionDeltas model final intents) =
      putRows .tournamentVenues (rebuiltRows model final intents .tournamentVenues) ++
        dropKeys .tournamentVenues (closingKeys intents .tournamentVenues) := by
  have hvenues : (group intents final.records).venues = mapOf (intents.flatMap venuePairs) := by
    rw [group_eq]
  have hrows := onTable_venueDeltas_links model final (group intents final.records)
  rw [hvenues] at hrows
  unfold buildProjectionDeltas
  simp only [onTable_append, onTable_deleteDeltas, onTable_flatten, onTable_results, hrows,
    single_tables, onTable_schedulingProfileDeltas, onTable_participantNameDeltas,
    onTable_drawDeltas_of_ne, onTable_claimDeltas_of_ne, reduceCtorEq, if_false,
    List.nil_append, List.append_nil, ne_eq, not_false_eq_true, deleteKeys_eq]
  rfl

/-- The statements of one structure's seed refresh. -/
def seedRefresh (entry : String × String) : List ReadChange :=
  if (final.records entry.2).isSome then
    dropKeys .seeds [idKey [("tournament_id", entry.2), ("structure_id", entry.1)]] ++
      putRows .seeds (seedRowsOf model final.records entry.1 entry.2)
  else []

/-- The seeds: refreshes, then deletes. -/
theorem onTable_seeds :
    onTable .seeds (buildProjectionDeltas model final intents) =
      (mapOf (intents.flatMap seedPairs)).flatMap (seedRefresh model final) ++
        dropKeys .seeds (closingKeys intents .seeds) := by
  have hseeds : (group intents final.records).seeds = mapOf (intents.flatMap seedPairs) := by
    rw [group_eq]
  have hrows : onTable .seeds (seedDeltas model final.records (group intents final.records)) =
      (mapOf (intents.flatMap seedPairs)).flatMap (seedRefresh model final) := by
    unfold seedDeltas
    rw [onTable_flatMap, hseeds]
    simp only [onTable_seedDeltasOf]
    rfl
  unfold buildProjectionDeltas
  simp only [onTable_append, onTable_deleteDeltas, onTable_flatten, onTable_results, hrows,
    onTable_of_table serves_tournamentDeltas, onTable_of_table serves_discoveryDeltas,
    onTable_of_table serves_eventDeltas, onTable_of_table serves_orderOfPlayDeltas,
    onTable_of_table serves_participantPublishDeltas, onTable_of_table serves_entryDeltas,
    onTable_schedulingProfileDeltas, onTable_participantNameDeltas, onTable_drawDeltas_of_ne,
    onTable_venueDeltas_of_ne, onTable_claimDeltas_of_ne, reduceCtorEq, if_false,
    List.nil_append, List.append_nil, ne_eq, not_false_eq_true, deleteKeys_eq]
  rfl

/-- The statements of one tournament's entry refresh. -/
def entryRefresh (t : String) : List ReadChange :=
  dropKeys .entries [idKey [("tournament_id", t)]] ++
    putRows .entries (model.entryRows (final.records t))

/-- The entries: refreshes, then claims, then deletes. -/
theorem onTable_entries :
    onTable .entries (buildProjectionDeltas model final intents) =
      (setOf (intents.flatMap entryRefreshes)).flatMap (entryRefresh model final) ++
        onTable .entries (claimDeltas (group intents final.records)) ++
        dropKeys .entries (closingKeys intents .entries) := by
  have hparticipants : (group intents final.records).participants =
      setOf (intents.flatMap entryRefreshes) := by
    rw [group_eq]
  have hrows := onTable_entryDeltas model final (group intents final.records)
  rw [hparticipants] at hrows
  unfold buildProjectionDeltas
  simp only [onTable_append, onTable_deleteDeltas, onTable_flatten, onTable_results, hrows,
    onTable_of_table serves_tournamentDeltas, onTable_of_table serves_discoveryDeltas,
    onTable_of_table serves_eventDeltas, onTable_of_table serves_orderOfPlayDeltas,
    onTable_of_table serves_participantPublishDeltas, onTable_of_table serves_seedDeltas,
    onTable_schedulingProfileDeltas, onTable_participantNameDeltas, onTable_drawDeltas_of_ne,
    onTable_venueDeltas_of_ne, reduceCtorEq, if_false, List.nil_append, List.append_nil, ne_eq,
    not_false_eq_true, deleteKeys_eq]
  rfl

/-- The claims only fill in the person of an entry. -/
theorem claim_updates (g : Grouped) : ∀ change ∈ onTable .entries (claimDeltas g),
    ∃ key row, change = .update .entries key row ∧
      ∀ column ∈ closingColumns, row column = none := by
  intro change hchange
  obtain ⟨hmem, htable⟩ := List.mem_filter.mp hchange
  obtain ⟨d, hd, rfl⟩ := List.mem_map.mp hmem
  obtain ⟨entry, -, hd⟩ := List.mem_flatMap.mp hd
  simp only [List.mem_cons, List.not_mem_nil, or_false] at hd
  rcases hd with rfl | rfl
  · simp [update, Change.table] at htable
  · exact ⟨_, _, rfl, by simp [rowOf, closingColumns]⟩

/-- The competitors: upserts, then claims and names. -/
theorem onTable_matchUpCompetitors :
    onTable .matchUpCompetitors (buildProjectionDeltas model final intents) =
      putRows .matchUpCompetitors (competitorRows model final (group intents final.records)) ++
        onTable .matchUpCompetitors (claimDeltas (group intents final.records)) ++
        (participantNameDeltas (group intents final.records)).map ProjectionDelta.change := by
  unfold buildProjectionDeltas
  simp only [onTable_append, onTable_deleteDeltas, onTable_flatten, onTable_results, single_tables,
    onTable_schedulingProfileDeltas, onTable_participantNameDeltas, onTable_drawDeltas_of_ne,
    onTable_venueDeltas_of_ne, reduceCtorEq, if_true, if_false, List.nil_append, List.append_nil,
    ne_eq, not_false_eq_true, deleteKeys, List.map_nil]
  rfl

/-- The structures: one refresh for each re-projected draw. -/
theorem onTable_structures :
    onTable .structures (buildProjectionDeltas model final intents) =
      (mapOf (intents.flatMap drawPairs)).flatMap fun entry =>
        onTable .structures (drawDeltasOf model final.records entry.1 entry.2) := by
  have hdraws : (group intents final.records).draws = mapOf (intents.flatMap drawPairs) := by
    rw [group_eq]
  have hrows : onTable .structures (drawDeltas model final.records (group intents final.records)) =
      (mapOf (intents.flatMap drawPairs)).flatMap fun entry =>
        onTable .structures (drawDeltasOf model final.records entry.1 entry.2) := by
    unfold drawDeltas
    rw [onTable_flatMap, hdraws]
  unfold buildProjectionDeltas
  simp only [onTable_append, onTable_deleteDeltas, onTable_flatten, onTable_results, hrows,
    single_tables, onTable_schedulingProfileDeltas, onTable_participantNameDeltas,
    onTable_venueDeltas_of_ne, onTable_claimDeltas_of_ne, reduceCtorEq, if_false,
    List.nil_append, List.append_nil, ne_eq, not_false_eq_true, deleteKeys, List.map_nil]

end Logs

end FactoryServer.RebuiltRows
