import FactoryServer.RebuildLogs

/-!
# Snapshot spans

A wholesale save replaces a record without any notice. Its projection is a span:
a marker that purges what the tournament owns, the rows of a rebuild, and a
marker that closes the span. The list of purged tables, the foreign keys and the
tables that the builder writes are kept apart in the source; together they leave
exactly the rows of the record.
-/

namespace FactoryServer.SnapshotSpans

open JsonValue TournamentAccess TournamentTree KeyedTables InsertionMaps ReadModelRows
open ProjectionDeltas IntentGroups ProjectionLogs RebuiltRows RebuildIntents TableBlocks
open OwnedBlocks RowOrigins RebuildLogs

/-- `SNAPSHOT_OWNED_TABLES`. -/
def SNAPSHOT_OWNED_TABLES : List ReadTable :=
  [.tournaments, .events, .draws, .structures, .seeds, .orderOfPlay, .schedulingProfile,
    .participantPublish, .matchUps, .entries, .courts, .tournamentVenues]

/-- `SNAPSHOT_CASCADE_COVERED_TABLES`. -/
def SNAPSHOT_CASCADE_COVERED_TABLES : List ReadTable := [.matchUpCompetitors, .tournamentDiscovery]

/-- `SNAPSHOT_SHARED_TABLES`. -/
def SNAPSHOT_SHARED_TABLES : List ReadTable := [.venues]

/-- A delta of a span; the markers stand on `TABLE_TOURNAMENTS` with the topic
`snapshot`, and a body row names its span. -/
inductive SpanDelta where
  /-- `snapshot_begin`: the tables to purge. -/
  | snapshotBegin (tournamentId snapshotId : String) (tables : List ReadTable) (source : String)
  /-- A delta of the body. -/
  | row (delta : ProjectionDelta) (snapshotId : String)
  /-- `snapshot_end`: how many deltas the body has. -/
  | snapshotEnd (tournamentId snapshotId : String) (deltaCount : ℕ) (source : String)

/-- `buildSnapshotDeltas`. -/
def buildSnapshotDeltas (factory : CompetitionFactory) (record : RecordTree)
    (snapshotId source : String) : List SpanDelta :=
  let t := record.tournamentId
  if t = "" then []
  else
    let body := buildProjectionDeltas factory.toReadModel (snapshotFinal factory record)
      (buildRebuildIntents factory record)
    .snapshotBegin t snapshotId SNAPSHOT_OWNED_TABLES source ::
      (body.map fun delta => .row delta snapshotId) ++
      [.snapshotEnd t snapshotId body.length source]

/-- `DELETE … WHERE tournament_id` over the tables of a marker. -/
def purge (t : String) (tables : List ReadTable) (state : ReadState) : ReadState := fun table =>
  if table ∈ tables then
    (state table).filter fun row => !(row "tournament_id" == some (.text t))
  else state table

/-- The foreign keys that a purge runs into; discovery rows hang under the
tournaments, which only a purge deletes. -/
def snapshotCascade : ReadTable → Option (ReadTable × String)
  | .tournamentDiscovery => some (.tournaments, "tournament_id")
  | table => cascade table

/-- A read state after the purge of a tournament, cascades included. -/
def cleared (t : String) (tables : List ReadTable) (state : ReadState) : ReadState :=
  sweep snapshotCascade Cell.isNull (purge t tables state)

/-- What the consumer does with one delta of a span. -/
def receive (state : ReadState) : SpanDelta → ReadState
  | .snapshotBegin t _ tables _ => cleared t tables state
  | .row delta _ => fun table => act primaryKey table (state table) delta.change
  | .snapshotEnd .. => state

/-- The consumer applies a whole span and then sweeps along the foreign keys. -/
def applySpan (span : List SpanDelta) (state : ReadState) : ReadState :=
  sweep cascade Cell.isNull (span.foldl receive state)

/-- A read state of one tournament: the rows of the owned tables carry it, and
rows of the covered tables name the row they hang under. -/
structure HoldsOnly (t : String) (state : ReadState) : Prop where
  /-- Rows of the owned tables carry the tournament. -/
  owned : ∀ table ∈ SNAPSHOT_OWNED_TABLES, ∀ row ∈ state table,
    row "tournament_id" = some (.text t)
  /-- Rows of the covered tables have their primary key. -/
  covered : ∀ table ∈ SNAPSHOT_CASCADE_COVERED_TABLES, ∀ row ∈ state table,
    ∀ column ∈ primaryKey table, (row column).all Cell.isNull = false

/-- The record has what the row is about. -/
def OfRecord (factory : CompetitionFactory) (record : RecordTree) : ReadTable → ReadRow → Prop
  | .draws, row => ∃ event ∈ record.events, ∃ draw ∈ event.drawDefinitions,
    row "draw_id" = idCell draw.drawId
  | .events, row => ∃ event ∈ record.events, row "event_id" = idCell event.eventId
  | .structures, row | .seeds, row => ∃ event ∈ record.events, ∃ draw ∈ event.drawDefinitions,
    ∃ id ∈ idsOfAll draw.structures, row "structure_id" = some (.text id)
  | .matchUps, row | .matchUpCompetitors, row => ∃ id ∈ record.matchUpIds,
    row "match_up_id" = some (.text id)
  | .entries, row => ∃ entry ∈ factory.entryRows (some record),
    agree (primaryKey .entries) row entry = true
  | .tournamentVenues, row => ∃ venue ∈ record.venues,
    row "venue_id" = some (.text venue.venueId)
  | .courts, row => ∃ venue ∈ record.venues, ∃ court ∈ venue.courts,
    row "court_id" = idCell court.courtId
  | _, row => row "tournament_id" = some (.text record.tournamentId)

section Span

variable {factory : CompetitionFactory} {record : RecordTree}

/-- A snapshot is the rebuild between two markers. -/
theorem snapshot_span (ht : record.tournamentId ≠ "") (snapshotId source : String) :
    buildSnapshotDeltas factory record snapshotId source =
      .snapshotBegin record.tournamentId snapshotId SNAPSHOT_OWNED_TABLES source ::
        ((rebuildDeltas factory record).map fun delta => .row delta snapshotId) ++
        [.snapshotEnd record.tournamentId snapshotId (rebuildDeltas factory record).length
          source] := by
  unfold buildSnapshotDeltas rebuildDeltas
  rw [snapshotFinal_eq]
  exact if_neg ht

/-- The body of a span acts as a log. -/
theorem foldl_receive_rows (deltas : List ProjectionDelta) (snapshotId : String)
    (state : ReadState) :
    (deltas.map fun delta => SpanDelta.row delta snapshotId).foldl receive state =
      applyChanges primaryKey (deltas.map ProjectionDelta.change) state := by
  induction deltas generalizing state with
  | nil => rfl
  | cons delta rest ih =>
    rw [List.map_cons, List.foldl_cons, ih]
    rfl

/-- A snapshot clears what the tournament owns and rebuilds it. -/
theorem applySpan_snapshot (ht : record.tournamentId ≠ "") (snapshotId source : String)
    (state : ReadState) :
    applySpan (buildSnapshotDeltas factory record snapshotId source) state =
      applyDeltas (rebuildChanges factory record)
        (cleared record.tournamentId SNAPSHOT_OWNED_TABLES state) := by
  rw [snapshot_span ht]
  unfold applySpan applyDeltas
  simp only [List.foldl_append, List.foldl_cons, List.foldl_nil, foldl_receive_rows]
  rfl

theorem snapshotCascade_of_cascade {table parent : ReadTable} {column : String}
    (h : cascade table = some (parent, column)) :
    snapshotCascade table = some (parent, column) := by
  cases table <;> first | exact h | cases h

theorem snapshotCascade_parent {table parent : ReadTable} {column : String}
    (h : snapshotCascade table = some (parent, column)) : snapshotCascade parent = none := by
  cases table <;>
    simp only [snapshotCascade, cascade, reduceCtorEq, Option.some.injEq, Prod.mk.injEq] at h
  all_goals
    obtain ⟨rfl, -⟩ := h
    rfl

/-- A purge leaves no row without its parent. -/
theorem foreignKeys_cleared (t : String) (tables : List ReadTable) (state : ReadState) :
    ForeignKeys cascade Cell.isNull (cleared t tables state) := by
  have hswept := foreignKeys_sweep Cell.isNull (fun _ _ _ => snapshotCascade_parent)
    (purge t tables state)
  intro table parent column hc
  exact hswept table parent column (snapshotCascade_of_cascade hc)

/-- After the purge, no table of the tournament has a row. -/
theorem cleared_eq_nil {t : String} {state : ReadState} (h : HoldsOnly t state) {table : ReadTable}
    (ht : table ∈ SNAPSHOT_OWNED_TABLES ++ SNAPSHOT_CASCADE_COVERED_TABLES) :
    cleared t SNAPSHOT_OWNED_TABLES state table = [] := by
  have hpurged : ∀ owned ∈ SNAPSHOT_OWNED_TABLES,
      purge t SNAPSHOT_OWNED_TABLES state owned = [] := by
    intro owned howned
    unfold purge
    rw [if_pos howned, List.filter_eq_nil_iff]
    intro row hrow
    simp [h.owned owned howned row hrow]
  have hshrinks : ∀ other, cleared t SNAPSHOT_OWNED_TABLES state other ⊆
      purge t SNAPSHOT_OWNED_TABLES state other := by
    intro other row hrow
    unfold cleared sweep at hrow
    split at hrow
    · exact hrow
    · exact (List.mem_filter.mp hrow).1
  rcases List.mem_append.mp ht with ht | ht
  · rw [List.eq_nil_iff_forall_not_mem]
    intro row hrow
    have hnone := hshrinks table hrow
    rw [hpurged table ht] at hnone
    cases hnone
  · have hparent : ∃ parent column, snapshotCascade table = some (parent, column) ∧
        parent ∈ SNAPSHOT_OWNED_TABLES ∧ column ∈ primaryKey table ∧
        table ∉ SNAPSHOT_OWNED_TABLES := by
      simp only [SNAPSHOT_CASCADE_COVERED_TABLES, List.mem_cons, List.not_mem_nil, or_false] at ht
      rcases ht with rfl | rfl
      · exact ⟨.matchUps, "match_up_id", rfl, by decide, by decide, by decide⟩
      · exact ⟨.tournaments, "tournament_id", rfl, by decide, by decide, by decide⟩
    obtain ⟨parent, column, hc, hparent, hcolumn, hnot⟩ := hparent
    unfold cleared sweep
    rw [hc]
    dsimp only
    rw [hpurged parent hparent, List.filter_eq_nil_iff]
    intro row hrow
    unfold purge at hrow
    rw [if_neg hnot] at hrow
    simp [h.covered table ht row hrow column hcolumn]

/-- A snapshot leaves the rows of the record, whatever the tables held. -/
theorem snapshot_replaces {state : ReadState} (ht : record.tournamentId ≠ "")
    (h : HoldsOnly record.tournamentId state) (snapshotId source : String) {table : ReadTable}
    (htable : table ∈ SNAPSHOT_OWNED_TABLES ++ SNAPSHOT_CASCADE_COVERED_TABLES) :
    applySpan (buildSnapshotDeltas factory record snapshotId source) state table =
      projectionOf factory record table := by
  have hcleared := foreignKeys_cleared record.tournamentId SNAPSHOT_OWNED_TABLES state
  rw [applySpan_snapshot ht, applyDeltas_rebuild hcleared, projectionOf_eq]
  unfold applyChanges
  rw [cleared_eq_nil h htable]
  rfl

/-- What a rebuild re-projects is in the record. -/
theorem rebuildGroup_seeds {e : String × String} (h : e ∈ (rebuildGroup factory record).seeds) :
    ∃ event ∈ record.events, ∃ draw ∈ event.drawDefinitions, e.1 ∈ idsOfAll draw.structures := by
  unfold rebuildGroup at h
  rw [group_eq] at h
  obtain ⟨intent, hintent, he⟩ := List.mem_flatMap.mp (mem_pairs_of_mem_mapOf h)
  rcases mem_buildRebuildIntents hintent with hhead | ⟨event, hevent, draw, hdraw, hmem⟩ |
    ⟨venue, -, rfl⟩ | ⟨participantId, personId, rfl⟩
  · simp only [List.mem_cons, List.not_mem_nil, or_false] at hhead
    rcases hhead with rfl | rfl | rfl | rfl | rfl | rfl <;> cases he
  · rcases mem_drawIntents hmem with ⟨drawId, -, rfl | rfl⟩ | ⟨id, hid, rfl⟩
    · cases he
    · cases he
    · rw [List.mem_singleton.mp he]
      exact ⟨event, hevent, draw, hdraw, hid⟩
  · cases he
  · cases he

theorem rebuildGroup_venues {e : String × (String × Venue)}
    (h : e ∈ (rebuildGroup factory record).venues) : e.2.2 ∈ record.venues := by
  unfold rebuildGroup at h
  rw [group_eq] at h
  obtain ⟨intent, hintent, he⟩ := List.mem_flatMap.mp (mem_pairs_of_mem_mapOf h)
  rcases mem_buildRebuildIntents hintent with hhead | ⟨event, -, draw, -, hmem⟩ |
    ⟨venue, hvenue, rfl⟩ | ⟨participantId, personId, rfl⟩
  · simp only [List.mem_cons, List.not_mem_nil, or_false] at hhead
    rcases hhead with rfl | rfl | rfl | rfl | rfl | rfl <;> cases he
  · rcases mem_drawIntents hmem with ⟨drawId, -, rfl | rfl⟩ | ⟨id, -, rfl⟩ <;> cases he
  · rw [List.mem_singleton.mp he]
    exact hvenue
  · cases he

/-- A draw that is found is a draw of the record. -/
theorem findDrawContext_mem {drawId : String} {found : Option String × DrawDefinition}
    (h : findDrawContext record drawId = some found) :
    ∃ event ∈ record.events, found.2 ∈ event.drawDefinitions := by
  obtain ⟨event, hevent, hfound⟩ := List.exists_of_findSome?_eq_some h
  obtain ⟨draw, hdraw, rfl⟩ := Option.map_eq_some_iff.mp hfound
  exact ⟨event, hevent, List.mem_of_find?_eq_some hdraw⟩

/-- The rows of the flattened matchUps are rows of the record's matchUps. -/
theorem flattened_ofRecord {t drawId : String} {matchUp : FlatMatchUp}
    (h : matchUp ∈ flattenedMatchUps factory.toReadModel (recordsOf record)
      (flattenOf record (factory.allDrawMatchUps record)) t drawId) {row : ReadRow}
    (hrow : row ∈ (matchUpRows factory.toReadModel (recordsOf record) t matchUp).1) :
    ∃ id ∈ record.matchUpIds, row "match_up_id" = some (.text id) := by
  obtain ⟨found, id, hfound, hid, hcell⟩ :=
    (rebuildFinal factory record).flattened t drawId matchUp h row hrow
  obtain ⟨-, rfl⟩ := recordsOf_eq_some hfound
  exact ⟨id, hid, hcell⟩

/-- Everything that a rebuild upserts is of the record. -/
theorem block_ofRecord {table : ReadTable} (hv : table ≠ .venues) {block : Block}
    (hblock : block ∈ rebuildBlocks factory record table) {row : ReadRow}
    (hrow : row ∈ block.rows) : OfRecord factory record table row := by
  have howned := (blocks_owned rebuildGroup_owned hblock).2 hv row hrow
  unfold rebuildBlocks at hblock
  cases table <;> simp only [blocks, List.mem_singleton, List.mem_map, List.mem_filterMap] at hblock
  case tournaments | tournamentDiscovery | orderOfPlay | schedulingProfile | participantPublish =>
    exact howned
  case events =>
    rw [hblock] at hrow
    obtain ⟨e, -, hrow⟩ := List.mem_flatMap.mp hrow
    obtain ⟨event, hevent, hrow⟩ := List.mem_filterMap.mp hrow
    obtain ⟨id, -, rfl⟩ := Option.map_eq_some_iff.mp hrow
    cases hr : recordsOf record e with
    | none =>
      have hnone : (rebuildFinal factory record).records e = none := hr
      rw [hnone] at hevent
      cases hevent
    | some found =>
      have hsome : (rebuildFinal factory record).records e = some found := hr
      obtain ⟨-, rfl⟩ := recordsOf_eq_some hr
      rw [hsome] at hevent
      exact ⟨event, hevent, (factory.eventRow_keys _ _ _ _).1⟩
  case draws =>
    rw [hblock] at hrow
    obtain ⟨e, -, hrow⟩ := List.mem_filterMap.mp hrow
    obtain ⟨found, hfound, rfl⟩ := Option.map_eq_some_iff.mp hrow
    obtain ⟨owner, howner, hcontext⟩ := Option.bind_eq_some_iff.mp hfound
    obtain ⟨-, rfl⟩ := recordsOf_eq_some howner
    obtain ⟨event, hevent, hdraw⟩ := findDrawContext_mem hcontext
    exact ⟨event, hevent, found.2, hdraw, (factory.drawRow_keys _ _ _ _).1⟩
  case structures =>
    obtain ⟨e, -, hblock⟩ := hblock
    obtain ⟨found, hfound, rfl⟩ := Option.map_eq_some_iff.mp hblock
    obtain ⟨owner, howner, hcontext⟩ := Option.bind_eq_some_iff.mp hfound
    obtain ⟨-, rfl⟩ := recordsOf_eq_some howner
    obtain ⟨event, hevent, hdraw⟩ := findDrawContext_mem hcontext
    obtain ⟨⟨id, hid, hcell⟩, -⟩ := rowsOfAll_cells _ _ row hrow
    exact ⟨event, hevent, found.2, hdraw, id, hid, hcell⟩
  case seeds =>
    obtain ⟨e, he, hblock⟩ := hblock
    obtain ⟨found, -, rfl⟩ := Option.map_eq_some_iff.mp hblock
    obtain ⟨event, hevent, draw, hdraw, hid⟩ := rebuildGroup_seeds he
    obtain ⟨ctx, seed, rfl, hstructure, -⟩ := seedRowsOf_row _ hrow
    refine ⟨event, hevent, draw, hdraw, e.1, hid, ?_⟩
    rw [(factory.seedRow_keys seed ctx).1, hstructure]
  case matchUps =>
    rw [hblock] at hrow
    rcases List.mem_append.mp hrow with hrow | hrow
    · obtain ⟨e, -, hrow⟩ := List.mem_flatMap.mp hrow
      obtain ⟨matchUp, hmatchUp, hrow⟩ := List.mem_flatMap.mp hrow
      exact flattened_ofRecord hmatchUp hrow
    · obtain ⟨e, he, rfl⟩ := List.mem_map.mp hrow
      have hresults := (@rebuildGroup_quiet factory record).2.2.2.2.2.1
      have hmem : e ∈ (rebuildGroup factory record).matchUpResults := (List.mem_filter.mp he).1
      rw [hresults] at hmem
      cases hmem
  case matchUpCompetitors =>
    rw [hblock] at hrow
    obtain ⟨e, -, hrow⟩ := List.mem_flatMap.mp hrow
    obtain ⟨matchUp, hmatchUp, hrow⟩ := List.mem_flatMap.mp hrow
    obtain ⟨parent, hparent, hsame⟩ := factory.competitorRow_parent _ _ row hrow
    obtain ⟨id, hid, hcell⟩ := flattened_ofRecord hmatchUp hparent
    exact ⟨id, hid, by rw [← hsame, hcell]⟩
  case entries =>
    obtain ⟨e, he, rfl⟩ := hblock
    have ht := rebuildGroup_owned.participants e he
    have hrecord : (rebuildFinal factory record).records e = some record := by
      rw [ht]
      exact recordsOf_self record
    rw [entryBlock, hrecord] at hrow
    exact ⟨row, hrow, agree_refl _ row⟩
  case venues => exact absurd rfl hv
  case courts =>
    obtain ⟨e, he, rfl⟩ := hblock
    obtain ⟨court, hcourt, hrow⟩ := List.mem_filterMap.mp hrow
    obtain ⟨id, -, rfl⟩ := Option.map_eq_some_iff.mp hrow
    exact ⟨e.2.2, rebuildGroup_venues he, court, hcourt, (factory.courtRow_keys _ _).1⟩
  case tournamentVenues =>
    rw [hblock] at hrow
    obtain ⟨e, he, rfl⟩ := List.mem_map.mp hrow
    refine ⟨e.2.2, rebuildGroup_venues he, ?_⟩
    simp [linkRow, factory.venueRow_keys]

/-- Being of the record is decided by the primary key. -/
theorem ofRecord_of_agree {table : ReadTable} (hv : table ≠ .venues) {row other : ReadRow}
    (hagree : agree (primaryKey table) row other = true)
    (h : OfRecord factory record table other) : OfRecord factory record table row := by
  have hcell := agree_iff.mp hagree
  cases table <;> simp only [OfRecord] at h ⊢
  case tournaments | tournamentDiscovery | orderOfPlay | schedulingProfile | participantPublish =>
    rw [hcell "tournament_id" (by simp [primaryKey]), h]
  case events =>
    rw [hcell "event_id" (by simp [primaryKey])]
    exact h
  case draws =>
    rw [hcell "draw_id" (by simp [primaryKey])]
    exact h
  case structures | seeds =>
    rw [hcell "structure_id" (by simp [primaryKey])]
    exact h
  case matchUps | matchUpCompetitors =>
    rw [hcell "match_up_id" (by simp [primaryKey])]
    exact h
  case entries =>
    obtain ⟨entry, hentry, hsame⟩ := h
    exact ⟨entry, hentry, by rw [agree_congr hagree, hsame]⟩
  case courts =>
    rw [hcell "court_id" (by simp [primaryKey])]
    exact h
  case tournamentVenues =>
    rw [hcell "venue_id" (by simp [primaryKey])]
    exact h
  case venues => exact absurd rfl hv

/-- The projection of a record has no row of anything that it lacks. -/
theorem projectionOf_ofRecord {table : ReadTable} (hv : table ≠ .venues) {row : ReadRow}
    (h : row ∈ projectionOf factory record table) : OfRecord factory record table row := by
  rw [projectionOf_eq] at h
  have hrow : row ∈ (rebuildChanges factory record).foldl (act primaryKey table) [] := h
  obtain ⟨new, hnew, hagree⟩ := origin_of_nil keepsKeys_rebuild hrow
  obtain ⟨block, hblock, hmem⟩ := rebuild_upserts.mp hnew
  exact ofRecord_of_agree hv hagree (block_ofRecord hv hblock hmem)

/-- The shape of a span: the markers around a body whose rows name the span and
whose tables are owned, covered or shared. -/
def WellFormed (t snapshotId source : String) (span : List SpanDelta) : Prop :=
  ∃ body : List ProjectionDelta,
    span = .snapshotBegin t snapshotId SNAPSHOT_OWNED_TABLES source ::
      (body.map fun delta => .row delta snapshotId) ++
      [.snapshotEnd t snapshotId body.length source] ∧
    ∀ delta ∈ body, delta.change.table ∈
      SNAPSHOT_OWNED_TABLES ++ SNAPSHOT_CASCADE_COVERED_TABLES ++ SNAPSHOT_SHARED_TABLES

theorem snapshot_wellFormed (ht : record.tournamentId ≠ "") (snapshotId source : String) :
    WellFormed record.tournamentId snapshotId source
      (buildSnapshotDeltas factory record snapshotId source) := by
  refine ⟨rebuildDeltas factory record, snapshot_span ht snapshotId source, ?_⟩
  intro delta _
  cases delta.change.table <;> decide

end Span

/-- A snapshot span is well formed, and on any read state of the tournament it
leaves exactly the rows of the record, none of them of anything that the record
lacks. -/
theorem snapshot_exact (factory : CompetitionFactory) (record : RecordTree)
    (snapshotId source : String) (state : ReadState) (ht : record.tournamentId ≠ "")
    (h : HoldsOnly record.tournamentId state) :
    WellFormed record.tournamentId snapshotId source
        (buildSnapshotDeltas factory record snapshotId source) ∧
      (∀ table ∈ SNAPSHOT_OWNED_TABLES ++ SNAPSHOT_CASCADE_COVERED_TABLES,
        applySpan (buildSnapshotDeltas factory record snapshotId source) state table =
          projectionOf factory record table) ∧
      ∀ table ∈ SNAPSHOT_OWNED_TABLES ++ SNAPSHOT_CASCADE_COVERED_TABLES,
        ∀ row ∈ applySpan (buildSnapshotDeltas factory record snapshotId source) state table,
          OfRecord factory record table row := by
  have hrows : ∀ table ∈ SNAPSHOT_OWNED_TABLES ++ SNAPSHOT_CASCADE_COVERED_TABLES,
      applySpan (buildSnapshotDeltas factory record snapshotId source) state table =
        projectionOf factory record table :=
    fun table htable => snapshot_replaces ht h snapshotId source htable
  refine ⟨snapshot_wellFormed ht snapshotId source, hrows, ?_⟩
  intro table htable row hrow
  rw [hrows table htable] at hrow
  refine projectionOf_ofRecord ?_ hrow
  rintro rfl
  revert htable
  decide

/-- A record with one draw of one structure and one matchUp. -/
def drawnRecord : RecordTree :=
  ⟨"t1", none, [⟨some "e1", [⟨some "d1",
    [.node (some "s1") [⟨"m1", [], none, none, .arr [.str "p1", .str "p2"]⟩] [] .null []],
    .null⟩], .null⟩], [], [], .null⟩

/-- Rows of a draw that the record no longer has. -/
def staleState : ReadState
  | .draws => [keyRow [("draw_id", some (.text "d0")), ("tournament_id", some (.text "t1"))]]
  | .structures => [keyRow [("structure_id", some (.text "s0")), ("draw_id", some (.text "d0")),
      ("tournament_id", some (.text "t1"))]]
  | .matchUps => [keyRow [("match_up_id", some (.text "m0")), ("tournament_id", some (.text "t1"))]]
  | .matchUpCompetitors => [keyRow [("match_up_id", some (.text "m0")),
      ("side_number", some (.number 1)), ("competitor_index", some (.number 0))]]
  | _ => []

theorem holdsOnly_stale : HoldsOnly "t1" staleState := by
  constructor
  · intro table ht row hrow
    cases table
    case draws | structures | matchUps =>
      rw [List.mem_singleton.mp hrow]
      rfl
    case matchUpCompetitors => exact absurd ht (by decide)
    all_goals cases hrow
  · intro table ht row hrow column hcolumn
    simp only [SNAPSHOT_CASCADE_COVERED_TABLES, List.mem_cons, List.not_mem_nil, or_false] at ht
    rcases ht with rfl | rfl
    · rw [List.mem_singleton.mp hrow]
      simp only [primaryKey, List.mem_cons, List.not_mem_nil, or_false] at hcolumn
      rcases hcolumn with rfl | rfl | rfl <;> rfl
    · cases hrow

/-- The stale draw, its structure, its matchUp and the competitor are replaced. -/
theorem snapshot_exact_stale :
    applySpan (buildSnapshotDeltas plainFactory drawnRecord "s1" "save") staleState .draws =
        projectionOf plainFactory drawnRecord .draws ∧
      applySpan (buildSnapshotDeltas plainFactory drawnRecord "s1" "save") staleState
        .matchUpCompetitors = projectionOf plainFactory drawnRecord .matchUpCompetitors := by
  have hexact := (snapshot_exact plainFactory drawnRecord "s1" "save" staleState (by decide)
    holdsOnly_stale).2.1
  exact ⟨hexact .draws (by decide), hexact .matchUpCompetitors (by decide)⟩

end FactoryServer.SnapshotSpans
